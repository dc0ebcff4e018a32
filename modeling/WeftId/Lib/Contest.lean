import Mathlib.Data.List.Perm.Subperm
import WeftId.Lib.Run

/-!
Requests that act on a shared store, one atomic act of one request at a time, and the rule for a resource
that a request first checks and only later uses up.  Two requests that both check before either uses it get
it twice; as long as every check is made while no other request stands between its check and its use, at
most one request gets past the check.
-/

structure Contest (σ τ : Type*) where
  store : σ
  stages : List τ

inductive ContestEvent (ω : Type*)
  | advance (request : Nat)
  | other (statement : ω)

namespace Contest

open List Run

variable {σ τ ω : Type*} {act : σ → τ → σ × τ} {other : σ → ω → σ} {x : Contest σ τ} {s : σ} {t t' : τ} {i j : Nat}
  {holding : τ → Prop} {event : ContestEvent ω}

section Step

variable (act other)

def step (x : Contest σ τ) : ContestEvent ω → Contest σ τ
  | .advance i =>
    match x.stages[i]? with
    | none => x
    | some t => { store := (act x.store t).1, stages := x.stages.set i (act x.store t).2 }
  | .other o => { x with store := other x.store o }

/-- The step with which a request enters the stages `D`. -/
def Enters (D : τ → Prop) (x : Contest σ τ) : ContestEvent ω → Prop
  | .advance i => ∃ t ∈ x.stages[i]?, ¬ D t ∧ D (act x.store t).2
  | .other _ => False

instance {D : τ → Prop} [DecidablePred D] (x : Contest σ τ) : ∀ event : ContestEvent ω, Decidable (Enters act D x event)
  | .advance _ => inferInstanceAs (Decidable (∃ t ∈ _, _))
  | .other _ => isFalse id

/-- A request that is about to check meets `C`, and no request stands between its check and its use. -/
def ChecksAlone (C checks : σ → τ → Prop) (holding : τ → Prop) (x : Contest σ τ) : ContestEvent ω → Prop
  | .advance i => ∀ t ∈ x.stages[i]?, checks x.store t → C x.store t ∧ ∀ u ∈ x.stages, ¬ holding u
  | .other _ => True

instance {C checks : σ → τ → Prop} {holding : τ → Prop} [∀ s t, Decidable (C s t)] [∀ s t, Decidable (checks s t)]
    [DecidablePred holding] (x : Contest σ τ) : ∀ event : ContestEvent ω,
    Decidable (ChecksAlone C checks holding x event)
  | .advance _ => inferInstanceAs (Decidable (∀ t ∈ _, _))
  | .other _ => isTrue trivial

end Step

theorem step_advance_none (h : x.stages[i]? = none) : step act other x (.advance i) = x := by
  simp only [step, h]

theorem step_advance (h : x.stages[i]? = some t) : step act other x (.advance i) =
    { store := (act x.store t).1, stages := x.stages.set i (act x.store t).2 } := by
  simp only [step, h]

/-- What a step can do: nothing, the statement of no request, or one act of a request. -/
@[elab_as_elim]
theorem step_cases {motive : Contest σ τ → Prop} (hx : motive x)
    (hother : ∀ o, event = .other o → motive { x with store := other x.store o })
    (hadvance : ∀ i t, event = .advance i → x.stages[i]? = some t →
      motive { store := (act x.store t).1, stages := x.stages.set i (act x.store t).2 }) :
    motive (step act other x event) := by
  cases event with
  | other o => exact hother o rfl
  | advance i =>
    cases hi : x.stages[i]? with
    | none => rwa [step_advance_none hi]
    | some t =>
      rw [step_advance hi]
      exact hadvance i t rfl hi

theorem stage_after {u : τ} (hi : x.stages[i]? = some t)
    (hj : (x.stages.set i t')[j]? = some u) : (j = i ∧ u = t') ∨ (j ≠ i ∧ x.stages[j]? = some u) := by
  have hlt := (List.getElem?_eq_some_iff.mp hi).1
  by_cases hji : j = i
  · subst hji
    rw [getElem?_set_self hlt] at hj
    exact .inl ⟨rfl, (Option.some.inj hj).symm⟩
  · rw [getElem?_set_ne (Ne.symm hji)] at hj
    exact .inr ⟨hji, hj⟩

theorem forall_stage_after {P : Nat → τ → Prop} (hi : x.stages[i]? = some t) (hnew : P i t')
    (hold : ∀ j u, x.stages[j]? = some u → j ≠ i → P j u) : ∀ j u, (x.stages.set i t')[j]? = some u → P j u := by
  intro j u hj
  rcases stage_after hi hj with ⟨rfl, rfl⟩ | ⟨hne, hj⟩
  · exact hnew
  · exact hold j u hj hne

theorem stage_invariant {T : σ → τ → Prop} (hact : ∀ s t, T s t → T (act s t).1 (act s t).2)
    (hothers : ∀ s t u, T s t → T (act s u).1 t) (hother : ∀ s t o, T s t → T (other s o) t)
    (hj : x.stages[j]? = some t) (ht : T x.store t) {events : List (ContestEvent ω)} :
    ∃ u, (run (step act other) x events).stages[j]? = some u ∧ T (run (step act other) x events).store u := by
  refine invariant (I := fun x : Contest σ τ => ∃ u, x.stages[j]? = some u ∧ T x.store u) ?_ ⟨t, hj, ht⟩
  rintro x event ⟨t, hj, ht⟩
  refine step_cases ⟨t, hj, ht⟩ (fun o _ => ⟨t, hj, hother _ _ _ ht⟩) fun i u _ hi => ?_
  have hlt := (List.getElem?_eq_some_iff.mp hi).1
  by_cases hji : j = i
  · subst hji
    obtain rfl : u = t := Option.some.inj (hi.symm.trans hj)
    exact ⟨_, getElem?_set_self hlt, hact _ _ ht⟩
  · exact ⟨t, (getElem?_set_ne (Ne.symm hji)).trans hj, hothers _ _ _ ht⟩

/-- At most one request is in the stages `holding`. -/
def Sole (holding : τ → Prop) (x : Contest σ τ) : Prop :=
  ∀ (i j : Nat) (t u : τ), x.stages[i]? = some t → x.stages[j]? = some u → holding t → holding u → i = j

theorem Sole.set (hx : Sole holding x) (hi : x.stages[i]? = some t)
    (hfirst : ∀ (j : Nat) (u : τ), x.stages[j]? = some u → j ≠ i → holding t' → ¬ holding u) :
    Sole holding { store := s, stages := x.stages.set i t' } := by
  intro j k u v hj hk hu hv
  rcases stage_after hi hj with ⟨rfl, rfl⟩ | ⟨hji, hold⟩
  · rcases stage_after hi hk with ⟨rfl, -⟩ | ⟨hki, hold'⟩
    · rfl
    · exact absurd hv (hfirst k v hold' hki hu)
  · rcases stage_after hi hk with ⟨rfl, rfl⟩ | ⟨-, hold'⟩
    · exact absurd hu (hfirst j u hold hji hv)
    · exact hx j k u v hold hold' hu hv

theorem Sole.step {C checks : σ → τ → Prop} (hx : Sole holding x)
    (henter : ∀ s t, ¬ holding t → holding (act s t).2 → checks s t)
    (hC : ChecksAlone C checks holding x event) : Sole holding (step act other x event) := by
  refine step_cases hx (fun o _ => hx) fun i t hevent hi => ?_
  subst hevent
  refine hx.set hi fun j u hj hji hholding hu => ?_
  by_cases ht : holding t
  · exact hji (hx j i u t hj hi hu ht)
  · exact (hC t hi (henter _ _ ht hholding)).2 u (mem_of_getElem? hj) hu

structure Held (L : σ → τ → Prop) (holding : τ → Prop) (x : Contest σ τ) : Prop where
  sole : Sole holding x
  rely : ∀ t ∈ x.stages, holding t → L x.store t

/-- As long as the checks are made alone, what the request in between relies on has to be kept only by its
own acts and by those of requests that are not in between. -/
theorem Held.step {L C checks : σ → τ → Prop} (hx : Held L holding x)
    (henter : ∀ s t, ¬ holding t → holding (act s t).2 → checks s t)
    (hchecked : ∀ s t, C s t → ¬ holding t → holding (act s t).2 → L (act s t).1 (act s t).2)
    (hown : ∀ s t, holding t → L s t → holding (act s t).2 → L (act s t).1 (act s t).2)
    (hothers : ∀ s t u, ¬ holding t → holding u → L s u → L (act s t).1 u)
    (hother : ∀ s t o, holding t → L s t → L (other s o) t)
    (hC : ChecksAlone C checks holding x event) : Held L holding (Contest.step act other x event) := by
  refine ⟨hx.sole.step henter hC, ?_⟩
  refine step_cases hx.rely (fun o _ t ht hholding => hother _ _ _ hholding (hx.rely t ht hholding)) ?_
  rintro i t rfl hi u hu hholding
  obtain ⟨j, hj⟩ := getElem?_of_mem hu
  rcases stage_after hi hj with ⟨-, rfl⟩ | ⟨hji, hold⟩
  · by_cases ht : holding t
    · exact hown _ _ ht (hx.rely t (mem_of_getElem? hi) ht) hholding
    · exact hchecked _ _ (hC t hi (henter _ _ ht hholding)).1 ht hholding
  · have ht : ¬ holding t := fun ht => hji (hx.sole j i u t hold hi hholding ht)
    exact hothers _ _ _ ht hholding (hx.rely u (mem_of_getElem? hold) hholding)

/-- How the acts of a request treat the resource.  `L` is what a request may rely on at its stage; `past` are
the stages past the check, `holding` those of them before the use, and `spent` says that it is used up. -/
structure SingleUse (act : σ → τ → σ × τ) (other : σ → ω → σ) (L C checks : σ → τ → Prop)
    (past holding : τ → Prop) (spent : σ → Prop) : Prop where
  keeps : ∀ s t, L s t → L (act s t).1 (act s t).2
  keeps_others : ∀ s t u, L s t → L s u → L (act s t).1 u
  keeps_other : ∀ s t o, L s t → L (other s o) t
  check : ∀ s t, L s t → ¬ past t → past (act s t).2 → checks s t ∧ holding (act s t).2 ∧ (C s t → ¬ spent s)
  use : ∀ s t, L s t → holding t → past (act s t).2 → ¬ holding (act s t).2 → spent (act s t).1
  stays : ∀ s t, L s t → spent s → spent (act s t).1
  stays_other : ∀ s o, spent s → spent (other s o)

structure Used (L : σ → τ → Prop) (past holding : τ → Prop) (spent : σ → Prop) (x : Contest σ τ) : Prop where
  rely : ∀ t ∈ x.stages, L x.store t
  spent_of_used : ∀ t ∈ x.stages, past t → ¬ holding t → spent x.store

structure Exclusive (L : σ → τ → Prop) (past holding : τ → Prop) (spent : σ → Prop) (x : Contest σ τ) : Prop
    extends Used L past holding spent x where
  alone : ∀ (i j : Nat) (t u : τ), x.stages[i]? = some t → x.stages[j]? = some u → past t → past u → i = j

variable {L C checks : σ → τ → Prop} {past holding D : τ → Prop} {spent : σ → Prop} {events : List (ContestEvent ω)}

theorem exclusive_of_start (hrely : ∀ t ∈ x.stages, L x.store t) (hnot : ∀ t ∈ x.stages, ¬ past t) :
    Exclusive L past holding spent x where
  rely := hrely
  spent_of_used t ht hpast := absurd hpast (hnot t ht)
  alone _ _ t _ hi _ hpast := absurd hpast (hnot t (mem_of_getElem? hi))

theorem SingleUse.used_step (h : SingleUse act other L C checks past holding spent) (hx : Used L past holding spent x)
    : Used L past holding spent (step act other x event) := by
  refine step_cases hx (fun o _ => ?_) fun i t _ hi => ?_
  · exact ⟨fun t ht => h.keeps_other _ _ _ (hx.rely t ht),
      fun t ht hpast hholding => h.stays_other _ _ (hx.spent_of_used t ht hpast hholding)⟩
  · have hmem := mem_of_getElem? hi
    have hL : L x.store t := hx.rely t hmem
    refine ⟨fun u hu => ?_, fun u hu hpast hholding => ?_⟩
    · rcases mem_or_eq_of_mem_set hu with hold | rfl
      · exact h.keeps_others _ _ _ hL (hx.rely u hold)
      · exact h.keeps _ _ hL
    · rcases mem_or_eq_of_mem_set hu with hold | rfl
      · exact h.stays _ _ hL (hx.spent_of_used u hold hpast hholding)
      · by_cases hht : holding t
        · exact h.use _ _ hL hht hpast hholding
        · by_cases ht : past t
          · exact h.stays _ _ hL (hx.spent_of_used t hmem ht hht)
          · exact absurd (h.check _ _ hL ht hpast).2.1 hholding

theorem SingleUse.exclusive_step (h : SingleUse act other L C checks past holding spent)
    (hx : Exclusive L past holding spent x) (hC : ChecksAlone C checks holding x event) :
    Exclusive L past holding spent (step act other x event) := by
  refine ⟨h.used_step hx.toUsed, ?_⟩
  refine step_cases hx.alone (fun o _ => hx.alone) fun i t hevent hi => ?_
  subst hevent
  have hL : L x.store t := hx.rely t (mem_of_getElem? hi)
  refine Sole.set hx.alone hi fun j u hj hji hpast hu => ?_
  by_cases ht : past t
  · exact hji (hx.alone j i u t hj hi hu ht)
  · obtain ⟨hchecks, -, hfresh⟩ := h.check _ _ hL ht hpast
    obtain ⟨hmeets, hfree⟩ := hC t hi hchecks
    have hmem : u ∈ x.stages := mem_of_getElem? hj
    exact hfresh hmeets (hx.spent_of_used u hmem hu (hfree u hmem))

theorem SingleUse.refused_of_used (h : SingleUse act other L C checks past holding spent) (hC : ∀ s t, C s t)
    (hx : Used L past holding spent x) {u : τ} (hi : x.stages[i]? = some t) (hpast : past t)
    (hholding : ¬ holding t) (hj : x.stages[j]? = some u) (hu : ¬ past u) :
    ∀ v ∈ (run (step act other) x events).stages[j]?, ¬ past v := by
  have hspent := hx.spent_of_used t (mem_of_getElem? hi) hpast hholding
  have hkeep : ∀ x event,
      (Used L past holding spent x ∧ spent x.store ∧ ∀ v ∈ x.stages[j]?, ¬ past v) →
        Used L past holding spent (step act other x event) ∧ spent (step act other x event).store ∧
          ∀ v ∈ (step act other x event).stages[j]?, ¬ past v := by
    rintro x event ⟨hx, hspent, hj⟩
    refine ⟨h.used_step hx, ?_⟩
    refine step_cases ⟨hspent, hj⟩ (fun o _ => ⟨h.stays_other _ _ hspent, hj⟩) fun k t _ hk => ?_
    have hL : L x.store t := hx.rely t (mem_of_getElem? hk)
    refine ⟨h.stays _ _ hL hspent, fun v hv => ?_⟩
    rcases stage_after hk hv with ⟨rfl, rfl⟩ | ⟨-, hold⟩
    · exact fun hpast => (h.check _ _ hL (hj t hk) hpast).2.2 (hC _ _) hspent
    · exact hj v hold
  exact (invariant hkeep ⟨hx, hspent, fun v hv => Option.some.inj (hj.symm.trans hv) ▸ hu⟩).2.2

theorem atMostOnce_of_sole {I : Contest σ τ → Prop} {P : Contest σ τ → ContestEvent ω → Prop} {G : τ → Prop}
    (hinv : ∀ x event, I x → P x event → I (step act other x event)) (hsole : ∀ x, I x → Sole G x)
    (hG : ∀ t, D t → G t) (hstay : ∀ s t, D t → D (act s t).2)
    (henter : ∀ x, I x → ∀ t ∈ x.stages, D (act x.store t).2 → G t) (hx : I x)
    (halong : Along (step act other) P x events) : AtMostOnce (step act other) (Enters act D) x events := by
  refine atMostOnce_of_mark_along (M := fun x => ∃ t ∈ x.stages, D t) hinv ?_ ?_ ?_ hx halong
  · intro x event _ henters
    cases event with
    | other o => exact henters.elim
    | advance i =>
      obtain ⟨t, hi, -, hD⟩ := henters
      refine ⟨_, ?_, hD⟩
      rw [step_advance hi]
      exact mem_set (List.getElem?_eq_some_iff.mp hi).1 _
  · rintro x event - ⟨t, ht, hD⟩
    refine step_cases ⟨t, ht, hD⟩ (fun o _ => ⟨t, ht, hD⟩) fun i u _ hi => ?_
    obtain ⟨j, hj⟩ := getElem?_of_mem ht
    by_cases hji : j = i
    · subst hji
      obtain rfl : u = t := Option.some.inj (hi.symm.trans hj)
      exact ⟨_, mem_set (List.getElem?_eq_some_iff.mp hi).1 _, hstay _ _ hD⟩
    · refine ⟨t, mem_of_getElem? (i := j) ?_, hD⟩
      rw [getElem?_set_ne (Ne.symm hji), hj]
  · rintro x event hx ⟨t, ht, hD⟩ henters
    cases event with
    | other o => exact henters
    | advance i =>
      obtain ⟨u, hi, hnot, hD'⟩ := henters
      obtain ⟨j, hj⟩ := getElem?_of_mem ht
      have hu : G u := henter x hx u (mem_of_getElem? hi) hD'
      have hji : j = i := hsole x hx j i t u hj hi (hG t hD) hu
      subst hji
      have htu : t = u := Option.some.inj (hj.symm.trans hi)
      exact hnot (htu ▸ hD)

theorem SingleUse.atMostOnce (h : SingleUse act other L C checks past holding spent)
    (hpast : ∀ t, D t → past t) (hstay : ∀ s t, D t → D (act s t).2)
    (henter : ∀ s t, L s t → D (act s t).2 → past t) (hx : Exclusive L past holding spent x)
    (halong : Along (step act other) (ChecksAlone C checks holding) x events) :
    AtMostOnce (step act other) (Enters act D) x events :=
  atMostOnce_of_sole (fun _ _ hx hC => h.exclusive_step hx hC) (fun _ hx => hx.alone) hpast hstay
    (fun _ hx t ht => henter _ t (hx.rely t ht)) hx halong

section Distinct

variable {κ : Type*} {value : τ → Option κ}

def Distinct (value : τ → Option κ) (x : Contest σ τ) : Prop :=
  ∀ (i j : Nat) (t u : τ) (k : κ), x.stages[i]? = some t → x.stages[j]? = some u →
    value t = some k → value u = some k → i = j

theorem Distinct.nodup (h : Distinct value x) : (x.stages.filterMap value).Nodup := by
  apply pairwise_filterMap.mpr
  apply pairwise_iff_getElem.mpr
  intro i j hi hj hlt k hk k' hk' heq
  subst heq
  have hij := h i j _ _ k (getElem?_eq_getElem hi) (getElem?_eq_getElem hj) hk hk'
  omega

theorem Distinct.length_le (h : Distinct value x) (allowed : List κ)
    (hallowed : ∀ t ∈ x.stages, ∀ k, value t = some k → k ∈ allowed) :
    (x.stages.filterMap value).length ≤ allowed.length := by
  have hsub : x.stages.filterMap value ⊆ allowed := by
    intro k hk
    obtain ⟨t, ht, hvalue⟩ := mem_filterMap.mp hk
    exact hallowed t ht k hvalue
  exact (h.nodup.subperm hsub).length_le

theorem Distinct.set (h : Distinct value x) (hi : x.stages[i]? = some t)
    (hnew : ∀ k, value t' = some k → ∀ (j : Nat) (u : τ), x.stages[j]? = some u → j ≠ i → value u ≠ some k) :
    Distinct value ({ store := s, stages := x.stages.set i t' } : Contest σ τ) := by
  intro a b u v k ha hb
  have hsole : Sole (value · = some k) x := fun a b u v => h a b u v k
  exact hsole.set hi (fun j u hj hne ht => hnew k ht j u hj hne) a b u v ha hb

end Distinct

/-- How the acts treat a resource that is checked and used up by one statement: `G` are the stages of a
request that got it, and `J` holds of the store throughout. -/
structure Taking (act : σ → τ → σ × τ) (other : σ → ω → σ) (J : σ → Prop) (G : τ → Prop) (spent : σ → Prop) : Prop where
  base : ∀ s t, J s → J (act s t).1
  base_other : ∀ s o, J s → J (other s o)
  take : ∀ s t, J s → ¬ G t → G (act s t).2 → ¬ spent s ∧ spent (act s t).1
  stays : ∀ s t, J s → spent s → spent (act s t).1
  stays_other : ∀ s o, J s → spent s → spent (other s o)

structure Taken (J : σ → Prop) (G : τ → Prop) (spent : σ → Prop) (x : Contest σ τ) : Prop where
  base : J x.store
  sole : Sole G x
  spent_of_taken : ∀ t ∈ x.stages, G t → spent x.store

section Taking

variable {J : σ → Prop} {G : τ → Prop}

theorem taken_of_start (hJ : J x.store) (hnot : ∀ t ∈ x.stages, ¬ G t) : Taken J G spent x where
  base := hJ
  sole _ _ t _ hi _ hG := absurd hG (hnot t (mem_of_getElem? hi))
  spent_of_taken t ht hG := absurd hG (hnot t ht)

theorem Taking.step (h : Taking act other J G spent) (hx : Taken J G spent x) (event : ContestEvent ω) :
    Taken J G spent (step act other x event) := by
  refine step_cases hx (fun o _ => ?_) fun i t _ hi => ?_
  · exact ⟨h.base_other _ _ hx.base, hx.sole,
      fun t ht hG => h.stays_other _ _ hx.base (hx.spent_of_taken t ht hG)⟩
  · refine ⟨h.base _ _ hx.base, hx.sole.set hi fun j u hj hji hG hu => ?_, fun u hu hG => ?_⟩
    · by_cases ht : G t
      · exact hji (hx.sole j i u t hj hi hu ht)
      · exact (h.take _ _ hx.base ht hG).1 (hx.spent_of_taken u (mem_of_getElem? hj) hu)
    · rcases mem_or_eq_of_mem_set hu with hold | rfl
      · exact h.stays _ _ hx.base (hx.spent_of_taken u hold hG)
      · by_cases ht : G t
        · exact h.stays _ _ hx.base (hx.spent_of_taken t (mem_of_getElem? hi) ht)
        · exact (h.take _ _ hx.base ht hG).2

theorem Taking.store_step (h : Taking act other J G spent) {K : σ → Prop} (hact : ∀ s t, J s → K s → K (act s t).1)
    (hother : ∀ s o, J s → K s → K (other s o)) (hJ : J x.store) (hK : K x.store) :
    J (Contest.step act other x event).store ∧ K (Contest.step act other x event).store := by
  exact step_cases ⟨hJ, hK⟩ (fun o _ => ⟨h.base_other _ _ hJ, hother _ _ hJ hK⟩) fun i t _ _ =>
    ⟨h.base _ _ hJ, hact _ _ hJ hK⟩

theorem Taking.once (h : Taking act other J G spent) (hJ : J x.store) :
    AtMostOnce (Contest.step act other) (Enters act G) x events := by
  refine atMostOnce_of_mark (I := fun x => J x.store) (M := fun x => spent x.store) ?_ ?_ ?_ ?_ hJ
  · exact fun x event hJ => (h.store_step (fun s t _ => h.base s t) (fun s o _ => h.base_other s o) hJ hJ).1
  · intro x event hJ henters
    cases event with
    | other o => exact henters.elim
    | advance i =>
      obtain ⟨t, hi, hnot, hG⟩ := henters
      rw [step_advance hi]
      exact (h.take _ _ hJ hnot hG).2
  · exact fun x event hJ hspent => (h.store_step h.stays h.stays_other hJ hspent).2
  · intro x event hJ hspent henters
    cases event with
    | other o => exact henters
    | advance i =>
      obtain ⟨t, -, hnot, hG⟩ := henters
      exact (h.take _ _ hJ hnot hG).1 hspent

theorem Taking.atMostOnce (h : Taking act other J G spent) (hG : ∀ t, D t → G t)
    (hstay : ∀ s t, D t → D (act s t).2) (henter : ∀ s t, ¬ G t → ¬ D (act s t).2) (hx : Taken J G spent x)
    (events : List (ContestEvent ω)) : AtMostOnce (Contest.step act other) (Enters act D) x events :=
  atMostOnce_of_sole (P := fun _ _ => True) (fun _ event hx _ => h.step hx event) (fun _ hx => hx.sole) hG hstay
    (fun x _ t _ hD => not_not.mp fun hnot => henter x.store t hnot hD) hx fun _ _ _ _ => trivial

end Taking

end Contest
