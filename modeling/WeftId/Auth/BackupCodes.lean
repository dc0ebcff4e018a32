import WeftId.Auth.Mfa
import WeftId.Lib.Contest
import WeftId.Lib.Ledger

/-!
Backup codes under concurrent requests.  A verification reads an unused code and marks it used in a second
statement that does not look at it again; a regeneration deletes the old codes of the user first and then
stores the new ones one by one.
-/

namespace WeftId

open List Proc Run Endpoint

variable (env : Env)

def regenerateBackupCodes (user : User) : Endpoint (List Text) := do
  Fiber.require (user.mfaEnabled = true)
    (.validation "MFA must be enabled to regenerate backup codes" "mfa_not_enabled")
  generateAndStoreBackupCodes env user.id

def backupCodeHash (code : Text) : Text := env.hashCode ((env.upper code).filter (· ≠ '-'))

inductive VerifyStage
  | received
  | found (id : Id)
  /-- `True` with the stored code that was accepted, or `False`. -/
  | returned (accepted : Option Id)
  deriving DecidableEq

namespace VerifyStage

def fiber (userId : Id) (code : Text) : VerifyStage → Endpoint Bool
  | received => verifyBackupCode env userId code
  | found id => do
    execute (·.markBackupCodeUsed id)
    pure true
  | returned accepted => pure accepted.isSome

def act (userId : Id) (code : Text) (db : Db) : VerifyStage → Db × VerifyStage
  | received =>
    match db.getUnusedBackupCode userId (backupCodeHash env code) with
    | none => (db, returned none)
    | some row => (db, found row.id)
  | found id => (db.markBackupCodeUsed id, returned (some id))
  | returned accepted => (db, returned accepted)

theorem runs (userId : Id) (code : Text) : Fiber.Runs (fiber env userId code) (act env userId code) := by
  intro db stage
  cases stage with
  | received =>
    refine ⟨?_, ?_⟩
    · dsimp only [act]
      split
      · rfl
      · rfl
    · dsimp only [act, backupCodeHash]
      generalize hrow : db.getUnusedBackupCode userId (env.hashCode ((env.upper code).filter (· ≠ '-'))) = row
      cases row with
      | none =>
        simp only [Proc.read, hrow]
        rfl
      | some row =>
        simp only [Proc.read, hrow]
        rfl
  | found id => exact ⟨rfl, rfl⟩
  | returned => exact ⟨rfl, rfl⟩

end VerifyStage

inductive RegenerateStage
  | received
  | generating (drawn : List Text) (left : Nat)
  /-- With nothing left to store the call has completed. -/
  | storing (codes left : List Text)
  | failed (error : Error)
  deriving DecidableEq

namespace RegenerateStage

def drawCode : Service Text := draw fun id => backupCode env (env.tokenHex id)

def storeCode (userId : Id) (code : Text) : Service Unit :=
  tx (·.createBackupCode userId (env.hashCode (code.filter (· ≠ '-'))))

def fiber (user : User) : RegenerateStage → Endpoint (List Text)
  | received => regenerateBackupCodes env user
  | generating drawn left => do
    let rest ← Fiber.collect (List.replicate (left + 1) (call (drawCode env)))
    Fiber.forEach (drawn ++ rest) fun code => call (storeCode env user.id code)
    pure (drawn ++ rest)
  | storing codes left => do
    Fiber.forEach left fun code => call (storeCode env user.id code)
    pure codes
  | failed error => Fiber.raise error

def act (user : User) (db : Db) : RegenerateStage → Db × RegenerateStage
  | received =>
    if user.mfaEnabled then (db.deleteBackupCodes user.id, generating [] 9)
    else (db, failed (.validation "MFA must be enabled to regenerate backup codes" "mfa_not_enabled"))
  | generating drawn left =>
    match drawCode env db with
    | (.error e, db) => (db, failed e)
    | (.ok code, db) =>
      match left with
      | 0 => (db, storing (drawn ++ [code]) (drawn ++ [code]))
      | left + 1 => (db, generating (drawn ++ [code]) left)
  | storing codes [] => (db, storing codes [])
  | storing codes (code :: left) =>
    match storeCode env user.id code db with
    | (.ok (), db) => (db, storing codes left)
    | (.error e, db) => (db, failed e)
  | failed error => (db, failed error)

def Deleted : RegenerateStage → Prop
  | generating _ _ | storing _ _ => True
  | received | failed _ => False

theorem act_storing (user : User) (db : Db) (codes left : List Text) (code : Text) :
    (act env user db (storing codes (code :: left))).1 = (storeCode env user.id code).exec db := by
  dsimp only [act]
  split
  · rename_i h
    exact (congrArg Prod.snd h).symm
  · rename_i h
    exact (congrArg Prod.snd h).symm

theorem regenerate_stages_run (user : User) : Fiber.Runs (fiber env user) (act env user) := by
  intro db stage
  cases stage with
  | received =>
    unfold act
    by_cases henabled : user.mfaEnabled = true
    · rw [if_pos henabled]
      have hfiber : fiber env user received = generateAndStoreBackupCodes env user.id := by
        simp only [fiber, regenerateBackupCodes, Fiber.require, if_pos henabled]
        rfl
      rw [hfiber]
      exact ⟨rfl, rfl⟩
    · rw [if_neg henabled]
      have hfiber : fiber env user received =
          Fiber.raise (.validation "MFA must be enabled to regenerate backup codes" "mfa_not_enabled") := by
        simp only [fiber, regenerateBackupCodes, Fiber.require, if_neg henabled]
        rfl
      rw [hfiber]
      exact ⟨rfl, rfl⟩
  | generating drawn left =>
    refine ⟨?_, ?_⟩
    · cases left with
      | zero => rfl
      | succ left => rfl
    · cases left with
      | zero => rfl
      | succ left =>
        -- the codes drawn so far are consed onto the rest one bind later
        refine Eq.trans ?_ (Fiber.andThen_assoc
          (Fiber.collect (List.replicate (left + 1) (call (drawCode env)))) _ _).symm
        refine congrArg (Fiber.andThen _) (funext fun result => ?_)
        cases result with
        | error e => rfl
        | ok rest =>
          simp only [append_assoc]
          rfl
  | storing codes left =>
    cases left with
    | nil => exact ⟨rfl, rfl⟩
    | cons code left =>
      refine ⟨act_storing env user db codes left code, ?_⟩
      dsimp only [act]
      split
      · rename_i h
        simp only [h]
        rfl
      · rename_i h
        simp only [h]
        rfl
  | failed error => exact ⟨rfl, rfl⟩

end RegenerateStage

inductive BackupCall
  | verify (userId : Id) (code : Text) (stage : VerifyStage)
  | regenerate (user : User) (stage : RegenerateStage)

namespace BackupCall

def act (db : Db) : BackupCall → Db × BackupCall
  | verify userId code stage => (stage.act env userId code db).map id (verify userId code)
  | regenerate user stage => (stage.act env user db).map id (regenerate user)

abbrev step : Contest Db BackupCall → ContestEvent Nat → Contest Db BackupCall := Contest.step (act env) Db.wait

/-- The call is about to read the unused code `k` by its hash. -/
def Reads (k : Id) (db : Db) : BackupCall → Prop
  | verify userId code .received =>
    ∃ c ∈ db.mfaBackupCodes, c.id = k ∧ c.userId = userId ∧ c.codeHash = backupCodeHash env code ∧ c.usedAt = none
  | _ => False

def Holds (k : Id) : BackupCall → Prop
  | verify _ _ (.found id) => id = k
  | _ => False

def Accepts (k : Id) : BackupCall → Prop
  | verify _ _ (.returned (some id)) => id = k
  | _ => False

instance (k : Id) (db : Db) (call : BackupCall) : Decidable (call.Reads env k db) := by
  unfold Reads
  split <;> infer_instance

instance (k : Id) (call : BackupCall) : Decidable (call.Holds k) := by
  unfold Holds
  split <;> infer_instance

instance (k : Id) (call : BackupCall) : Decidable (call.Accepts k) := by
  unfold Accepts
  split <;> infer_instance

/-- Whenever a verification reads an unused code, no other call has read that code and not yet marked it. -/
def ReadsAlone (x : Contest Db BackupCall) (event : ContestEvent Nat) : Prop :=
  ∀ c ∈ x.store.mfaBackupCodes, Contest.ChecksAlone (fun _ _ => True) (Reads env c.id) (Holds c.id) x event
  deriving Decidable

variable {env} {db : Db} {call other : BackupCall} {k userId : Id} {user : User} {done : BackupCode → Prop}
  {events : List (ContestEvent Nat)} {x : Contest Db BackupCall}

theorem follows_storeCode {code : Text} : db.nextId ≤ ((RegenerateStage.storeCode env userId code).exec db).nextId ∧
      Ledger.Follows (·.id) done db.nextId ((RegenerateStage.storeCode env userId code).exec db).nextId
        db.mfaBackupCodes ((RegenerateStage.storeCode env userId code).exec db).mfaBackupCodes := by
  unfold RegenerateStage.storeCode
  cases hcreate : db.createBackupCode userId (env.hashCode (code.filter (· ≠ '-'))) with
  | error e =>
    rw [exec_tx_of_error hcreate]
    exact ⟨le_refl _, .refl⟩
  | ok result =>
    rw [exec_tx_of_ok hcreate]
    unfold Db.createBackupCode at hcreate
    split_ifs at hcreate
    cases hcreate
    exact ⟨Nat.le_succ _, Ledger.Follows.refl.concat (le_refl _) (Nat.lt_succ_self _)⟩

theorem follows_act (hdone : ∀ c t, done c → done { c with usedAt := some t }) (db : Db)
    (call : BackupCall) : db.nextId ≤ (call.act env db).1.nextId ∧
      Ledger.Follows (·.id) done db.nextId (call.act env db).1.nextId db.mfaBackupCodes
        (call.act env db).1.mfaBackupCodes := by
  cases call with
  | verify userId code stage =>
    cases stage with
    | received =>
      have hdb : ((verify userId code .received).act env db).1 = db := by
        dsimp only [act, VerifyStage.act]
        split
        · rfl
        · rfl
      rw [hdb]
      exact ⟨le_refl _, .refl⟩
    | found id =>
      refine ⟨le_refl _, Ledger.Follows.map (fun c => ?_) fun c hc => ?_⟩
      · split_ifs
        · rfl
        · rfl
      · split_ifs
        · exact hdone c _ hc
        · exact hc
    | returned => exact ⟨le_refl _, .refl⟩
  | regenerate user stage =>
    cases stage with
    | received =>
      dsimp only [act, RegenerateStage.act]
      split_ifs
      · exact ⟨le_refl _, .filter _⟩
      · exact ⟨le_refl _, .refl⟩
    | generating drawn left =>
      cases left with
      | zero => exact ⟨Nat.le_succ _, .refl⟩
      | succ left => exact ⟨Nat.le_succ _, .refl⟩
    | storing codes left =>
      cases left with
      | nil => exact ⟨le_refl _, .refl⟩
      | cons code left =>
        have hdb : ((regenerate user (.storing codes (code :: left))).act env db).1 =
            (RegenerateStage.storeCode env user.id code).exec db := RegenerateStage.act_storing ..
        rw [hdb]
        exact follows_storeCode
    | failed error => exact ⟨le_refl _, .refl⟩

structure Relies (k : Id) (db : Db) (call : BackupCall) : Prop where
  fresh : Ledger.Fresh (·.id) db.nextId db.mfaBackupCodes
  held : call.Holds k → k < db.nextId

def Spent (k : Id) (db : Db) : Prop :=
  Ledger.Spent (·.id) (fun c : BackupCode => c.usedAt.isSome) db.nextId db.mfaBackupCodes k

theorem Relies.act_other (h : call.Relies k db) (ho : other.Relies k db) : other.Relies k (call.act env db).1 := by
  obtain ⟨hle, hfollows⟩ := @follows_act env (fun _ => True) (fun _ _ _ => trivial) db call
  exact ⟨hfollows.fresh hle h.fresh, fun hholds => lt_of_lt_of_le (ho.held hholds) hle⟩

theorem spent_act (h : Spent k db) : Spent k (call.act env db).1 := by
  obtain ⟨hle, hfollows⟩ := @follows_act env (fun c : BackupCode => c.usedAt.isSome) (fun _ _ _ => rfl) db call
  exact hfollows.spent hle h

theorem Reads.inv (h : call.Reads env k db) : ∃ userId code c, call = verify userId code .received ∧
    c ∈ db.mfaBackupCodes ∧ c.id = k ∧ c.usedAt = none := by
  rcases call with ⟨userId, code, _ | id | accepted⟩ | ⟨user, stage⟩
  · obtain ⟨c, hc, hid, -, -, hunused⟩ := h
    exact ⟨userId, code, c, rfl, hc, hid, hunused⟩
  all_goals exact h.elim

theorem Holds.inv (h : call.Holds k) : ∃ userId code, call = verify userId code (.found k) := by
  rcases call with ⟨userId, code, _ | id | accepted⟩ | ⟨user, stage⟩
  case verify.found => exact ⟨userId, code, congrArg (verify userId code ∘ .found) h⟩
  all_goals exact h.elim

theorem Accepts.inv (h : call.Accepts k) : ∃ userId code, call = verify userId code (.returned (some k)) := by
  rcases call with ⟨userId, code, _ | id | _ | id⟩ | ⟨user, stage⟩
  case verify.returned.some => exact ⟨userId, code, congrArg (verify userId code ∘ .returned ∘ some) h⟩
  all_goals exact h.elim

theorem reads_of_holds (h : (call.act env db).2.Holds k) : (call.act env db).1 = db ∧ call.Reads env k db := by
  cases call with
  | regenerate => exact h.elim
  | verify userId code stage =>
    cases stage with
    | received =>
      dsimp only [act, VerifyStage.act] at h ⊢
      cases hrow : db.getUnusedBackupCode userId (backupCodeHash env code) with
      | none =>
        rw [hrow] at h
        exact h.elim
      | some row =>
        rw [hrow] at h
        have hmatch : row.userId = userId ∧ row.codeHash = backupCodeHash env code ∧ row.usedAt = none := by
          simpa using find?_some hrow
        exact ⟨rfl, row, mem_of_find?_eq_some hrow, h, hmatch⟩
    | found id => exact h.elim
    | returned => exact h.elim

theorem holds_of_accepts (h : ¬ call.Accepts k) (h' : (call.act env db).2.Accepts k) : call.Holds k := by
  cases call with
  | regenerate => exact h'.elim
  | verify userId code stage =>
    cases stage with
    | received =>
      dsimp only [act, VerifyStage.act] at h'
      split at h'
      · exact h'.elim
      · exact h'.elim
    | found id => exact h'
    | returned => exact absurd h' h

theorem act_of_holds (h : call.Holds k) (db : Db) : (call.act env db).1 = db.markBackupCodeUsed k := by
  obtain ⟨userId, code, rfl⟩ := h.inv
  rfl

theorem accepts_act (h : call.Accepts k) : (call.act env db).2.Accepts k := by
  obtain ⟨userId, code, rfl⟩ := h.inv
  rfl

theorem spent_markBackupCodeUsed (h : k < db.nextId) : Spent k (db.markBackupCodeUsed k) := by
  refine ⟨h, fun c hc hck => ?_⟩
  obtain ⟨d, -, rfl⟩ := mem_map.mp hc
  split_ifs at hck ⊢ with hd
  · rfl
  · exact absurd hck hd

theorem Relies.act (h : call.Relies k db) : (call.act env db).2.Relies k (call.act env db).1 := by
  refine ⟨(h.act_other h).fresh, fun hholds => ?_⟩
  obtain ⟨hdb, hreads⟩ := reads_of_holds hholds
  rw [hdb]
  obtain ⟨_, _, c, -, hc, rfl, -⟩ := hreads.inv
  exact h.fresh c hc

theorem not_spent_of_reads (h : call.Reads env k db) : ¬ Spent k db := by
  intro hspent
  obtain ⟨_, _, c, -, hc, hid, hunused⟩ := h.inv
  have hused : c.usedAt.isSome = true := hspent.2 c hc hid
  rw [hunused] at hused
  cases hused

theorem singleUse (env : Env) (k : Id) :
    Contest.SingleUse (act env) Db.wait (fun db call => call.Relies k db) (fun _ _ => True) (Reads env k)
      (fun call => call.Holds k ∨ call.Accepts k) (Holds k) (Spent k) where
  keeps _ _ h := h.act
  keeps_others _ _ _ h ho := h.act_other ho
  keeps_other _ _ _ h := ⟨h.fresh, h.held⟩
  check db call _ hpast hpast' := by
    have hholds : (call.act env db).2.Holds k := by
      rcases hpast' with hholds | haccepts
      · exact hholds
      · exact absurd (.inl (holds_of_accepts (fun h => hpast (.inr h)) haccepts)) hpast
    have hreads := (reads_of_holds hholds).2
    exact ⟨hreads, hholds, fun _ => not_spent_of_reads hreads⟩
  use db call h hholds _ _ := by
    rw [act_of_holds hholds]
    exact spent_markBackupCodeUsed (h.held hholds)
  stays _ _ _ hspent := spent_act hspent
  stays_other _ _ hspent := hspent

theorem accepted_at_most_once (x : Contest Db BackupCall)
    (hfresh : Ledger.Fresh (·.id) x.store.nextId x.store.mfaBackupCodes)
    (hstart : ∀ call ∈ x.stages, ∀ k, ¬ (call.Holds k ∨ call.Accepts k))
    (halone : Along (step env) (ReadsAlone env) x events) (k : Id) :
    AtMostOnce (step env) (Contest.Enters (act env) (Accepts k)) x events := by
  have halone' : Along (step env) (Contest.ChecksAlone (fun _ _ => True) (Reads env k) (Holds k)) x events := by
    intro l₁ event l₂ hl
    have hreads := halone l₁ event l₂ hl
    cases event with
    | other micros => trivial
    | advance i =>
      intro call hcall hreads'
      -- a code that is read is in the table, so the condition speaks of it
      obtain ⟨_, _, c, -, hc, rfl, -⟩ := hreads'.inv
      exact hreads c hc call hcall hreads'
  refine (singleUse env k).atMostOnce (fun _ h => .inr h) (fun db _ h => accepts_act h) ?_ ?_ halone'
  · intro db call _ h
    by_cases hbefore : call.Accepts k
    · exact .inr hbefore
    · exact .inl (holds_of_accepts hbefore h)
  · refine Contest.exclusive_of_start (fun call hcall => ⟨hfresh, fun hholds => ?_⟩) fun call hcall =>
      hstart call hcall k
    exact absurd (.inl hholds) (hstart call hcall k)

/-- The code `k` was given out, and whatever row still bears its id is another user's. -/
def Replaced (userId k : Id) (db : Db) : Prop :=
  Ledger.Spent (·.id) (fun c : BackupCode => c.userId ≠ userId) db.nextId db.mfaBackupCodes k

theorem replaced_act (h : Replaced userId k db) : Replaced userId k (call.act env db).1 := by
  obtain ⟨hle, hfollows⟩ := @follows_act env (fun c : BackupCode => c.userId ≠ userId) (fun _ _ h => h) db call
  exact hfollows.spent hle h

theorem replaced_deleteBackupCodes (h : k < db.nextId) : Replaced userId k (db.deleteBackupCodes userId) := by
  refine ⟨h, fun c hc _ => ?_⟩
  have hmem := mem_filter.mp hc
  exact of_decide_eq_true hmem.2

def Regenerating (user : User) (k : Id) (db : Db) (call : BackupCall) : Prop :=
  k < db.nextId ∧ ∃ stage, call = regenerate user stage ∧ (stage.Deleted → Replaced user.id k db)

theorem Regenerating.act (h : Regenerating user k db call) :
    Regenerating user k (call.act env db).1 (call.act env db).2 := by
  obtain ⟨hlt, stage, rfl, hdeleted⟩ := h
  have hle := (@follows_act env (fun _ => True) (fun _ _ _ => trivial) db (regenerate user stage)).1
  refine ⟨lt_of_lt_of_le hlt hle, (stage.act env user db).2, rfl, fun hafter => ?_⟩
  cases stage with
  | received =>
    dsimp only [BackupCall.act, RegenerateStage.act] at hafter ⊢
    split_ifs at hafter ⊢
    · exact replaced_deleteBackupCodes hlt
    · exact hafter.elim
  | generating => exact replaced_act (hdeleted trivial)
  | storing => exact replaced_act (hdeleted trivial)
  | failed error => exact hafter.elim

theorem Regenerating.act_other (h : Regenerating user k db call) : Regenerating user k (other.act env db).1 call := by
  obtain ⟨hlt, stage, rfl, hdeleted⟩ := h
  have hle := (@follows_act env (fun _ => True) (fun _ _ _ => trivial) db other).1
  exact ⟨lt_of_lt_of_le hlt hle, stage, rfl, fun h => replaced_act (hdeleted h)⟩

/-- A verification of the user that has nothing to do with the replaced code. -/
def Clear (userId k : Id) (db : Db) (call : BackupCall) : Prop :=
  Replaced userId k db ∧ (∃ code stage, call = verify userId code stage) ∧ ¬ call.Holds k ∧ ¬ call.Accepts k

theorem Clear.act (h : Clear userId k db call) : Clear userId k (call.act env db).1 (call.act env db).2 := by
  obtain ⟨hreplaced, ⟨code, stage, rfl⟩, hholds, haccepts⟩ := h
  refine ⟨replaced_act hreplaced, ⟨code, _, rfl⟩, fun h => ?_, fun h => hholds (holds_of_accepts haccepts h)⟩
  have hreads := (reads_of_holds h).2
  cases stage with
  | received =>
    obtain ⟨c, hc, hid, huser, -⟩ := hreads
    exact hreplaced.2 c hc hid huser
  | found id => exact hreads
  | returned => exact hreads

theorem replaced_not_accepted (hfresh : Ledger.Fresh (·.id) x.store.nextId x.store.mfaBackupCodes)
    {c : BackupCode} (hc : c ∈ x.store.listBackupCodes user.id) {i j : Nat}
    (hi : x.stages[i]? = some (regenerate user .received)) {l l' : List (ContestEvent Nat)} {codes : List Text}
    (hcompleted : (run (step env) x l).stages[i]? = some (regenerate user (.storing codes []))) {code : Text}
    (hj : (run (step env) x l).stages[j]? = some (verify user.id code .received)) :
    ∀ call ∈ (run (step env) x (l ++ l')).stages[j]?, ¬ call.Accepts c.id := by
  have hgiven := hfresh c (mem_of_mem_filter hc)
  have hregenerating : ∃ call, (run (step env) x l).stages[i]? = some call ∧
      Regenerating user c.id (run (step env) x l).store call := by
    refine Contest.stage_invariant ?_ ?_ ?_ hi ?_
    · exact fun _ _ h => h.act
    · exact fun _ _ _ h => h.act_other
    · exact fun _ _ _ h => h
    · exact ⟨hgiven, .received, rfl, fun h => h.elim⟩
  obtain ⟨call, hcall, -, stage, rfl, hdeleted⟩ := hregenerating
  have hstage := (BackupCall.regenerate.inj (Option.some.inj (hcall.symm.trans hcompleted))).2
  have hreplaced := hdeleted (by rw [hstage]; trivial)
  have hclear : ∃ call, (run (step env) (run (step env) x l) l').stages[j]? = some call ∧
      Clear user.id c.id (run (step env) (run (step env) x l) l').store call := by
    refine Contest.stage_invariant ?_ ?_ ?_ hj ?_
    · exact fun _ _ h => h.act
    · exact fun _ _ _ h => ⟨replaced_act h.1, h.2⟩
    · exact fun _ _ _ h => h
    · exact ⟨hreplaced, ⟨code, .received, rfl⟩, id, id⟩
  obtain ⟨call, hcall, -, -, -, haccepts⟩ := hclear
  rw [run_append]
  intro call' hcall'
  obtain rfl := Option.some.inj (hcall.symm.trans hcall')
  exact haccepts

theorem fresh_run (hfresh : Ledger.Fresh (·.id) x.store.nextId x.store.mfaBackupCodes) :
    Ledger.Fresh (·.id) (run (step env) x events).store.nextId (run (step env) x events).store.mfaBackupCodes := by
  refine invariant (I := fun x : Contest Db BackupCall => Ledger.Fresh (·.id) x.store.nextId x.store.mfaBackupCodes)
    (fun x event hfresh => ?_) hfresh
  unfold BackupCall.step
  refine Contest.step_cases hfresh (fun _ _ => hfresh) fun i call _ _ => ?_
  obtain ⟨hle, hfollows⟩ := @follows_act env (fun _ => True) (fun _ _ _ => trivial) x.store call
  exact hfollows.fresh hle hfresh

def Received : BackupCall → Prop
  | verify _ _ stage => stage = .received
  | regenerate _ stage => stage = .received

instance : ∀ call : BackupCall, Decidable call.Received
  | verify _ _ _ | regenerate _ _ => inferInstanceAs (Decidable (_ = _))

/-- However verifications and regenerations interleave, each stored code is accepted at most once, provided
that no verification reads a code that another one has read and not yet marked; and no verification that
begins after a regeneration has completed accepts a code that was stored when the regeneration began. -/
theorem backup_code_admits_at_most_once (env : Env) (x : Contest Db BackupCall)
    (hfresh : Ledger.Fresh (·.id) x.store.nextId x.store.mfaBackupCodes) (hstart : ∀ call ∈ x.stages, call.Received)
    (events : List (ContestEvent Nat)) (halone : Along (step env) (ReadsAlone env) x events) :
    (∀ k, AtMostOnce (step env) (Contest.Enters (act env) (Accepts k)) x events) ∧
    ∀ l₁ l₂ l₃, events = l₁ ++ (l₂ ++ l₃) → ∀ (user : User) (i j : Nat) (codes : List Text) (code : Text),
      (run (step env) x l₁).stages[i]? = some (regenerate user .received) →
      (run (step env) x (l₁ ++ l₂)).stages[i]? = some (regenerate user (.storing codes [])) →
      (run (step env) x (l₁ ++ l₂)).stages[j]? = some (verify user.id code .received) →
      ∀ c ∈ (run (step env) x l₁).store.listBackupCodes user.id, ∀ call ∈ (run (step env) x events).stages[j]?,
        ¬ call.Accepts c.id := by
  have hstart' : ∀ call ∈ x.stages, ∀ k, ¬ (call.Holds k ∨ call.Accepts k) := by
    intro call hcall k
    have hreceived := hstart call hcall
    cases call with
    | regenerate => exact not_or_intro id id
    | verify userId code stage =>
      cases stage with
      | received => exact not_or_intro id id
      | found id => cases hreceived
      | returned => cases hreceived
  refine ⟨accepted_at_most_once x hfresh hstart' halone, ?_⟩
  intro l₁ l₂ l₃ hevents user i j codes code hi hcompleted hj c hc
  rw [run_append] at hcompleted hj
  rw [hevents, run_append]
  exact replaced_not_accepted (fresh_run hfresh) hc hi hcompleted hj

def backupContest : Contest Db BackupCall where
  store := { nextId := 10, users := [{ id := 1 }],
             mfaBackupCodes := [{ id := 5, userId := 1, codeHash := Env.ascii.hashCode "ABCD1234" }] }
  stages := [verify 1 "abcd-1234" .received, verify 1 "ABCD-1234" .received,
    regenerate { id := 1 } .received]

/-- Both verifications read the code before either marks it, and both return `True`. -/
theorem backup_code_accepted_twice :
    ¬ AtMostOnce (step Env.ascii) (Contest.Enters (act Env.ascii) (Accepts 5)) backupContest
      ([0, 1, 0, 1].map .advance) := by
  intro h
  refine h ([0, 1].map .advance) (.advance 0) [] (.advance 1) [] rfl ?_ ?_
  · decide +kernel
  · decide +kernel

theorem marked_code_admits_once : AtMostOnce (step Env.ascii) (Contest.Enters (act Env.ascii) (Accepts 5)) backupContest
      ([0, 2, 0, 2, 1, 1].map .advance) :=
  (backup_code_admits_at_most_once Env.ascii backupContest (by decide +kernel)
    (by decide +kernel) _ (by decide +kernel)).1 5

end BackupCall

end WeftId
