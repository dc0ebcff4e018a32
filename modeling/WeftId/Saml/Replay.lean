import WeftId.Db
import WeftId.Lib.Run
import WeftId.Lib.TtlCache

/-!
The replay check of the SAML response handler.  The identifier of every assertion that passes is kept in
memcached for a time derived from the assertion's own validity; a second presentation is refused while the
entry lives, if the client waits for the server to say that it lives.  Clock readings are in microseconds,
`NotOnOrAfter` and the time to live in whole seconds.
-/

namespace WeftId

open List Proc Run

def second : Nat := 1000000

structure SamlAuth where
  lastAssertionId : Option Text
  lastAssertionNotOnOrAfter : Option Nat

namespace Saml

abbrev ReplayCache := TtlCache Text Text

def assertionCachePrefix : Text := "saml_assertion:"

def defaultReplayTtl : Nat := 300

def maxReplayTtl : Nat := 600

def assertionCacheKey (tenantId assertionId : Text) : Text :=
  assertionCachePrefix ++ tenantId ++ ":" ++ assertionId

/-- The time to live of the entry, in seconds: `int` drops the fraction of a second. -/
def replayTtl (notOnOrAfter : Option Nat) (now : Nat) : Nat :=
  match notOnOrAfter with
  | none | some 0 => defaultReplayTtl
  | some limit =>
    let remaining : Int := ((limit * second : Nat) - (now : Int)).tdiv second
    (max 1 (min remaining maxReplayTtl)).toNat

/-- A client that does not wait for the reply of the server, as `get_client` leaves it, answers every `add` with
success. -/
def checkAssertionReplay (waits : Bool) (auth : SamlAuth) (tenantId : Text) (now : Nat) :
    Proc ReplayCache Error Unit :=
  match auth.lastAssertionId with
  | none | some [] => pure ()
  | some assertionId => do
    let key := assertionCacheKey tenantId assertionId
    let ttl := replayTtl auth.lastAssertionNotOnOrAfter now
    let added ← fun cache =>
      let (stored, cache) := cache.add now key "1" (ttl * second)
      (.ok (stored || !waits), cache)
    if added then pure ()
    else do
      let found ← read fun cache => cache.get now key
      require (found = none)
        (.validation "SAML assertion has already been processed" "saml_assertion_replay")

structure Presentation where
  auth : SamlAuth
  time : Nat

/-- The cache of one tenant, with the presentations that passed so far, the last one first. -/
structure ReplayGuard where
  cache : ReplayCache := []
  clock : Nat := 0
  passed : List Presentation := []

def ReplayGuard.present (waits : Bool) (tenantId : Text) (g : ReplayGuard) (p : Presentation) : ReplayGuard :=
  let (result, cache) := checkAssertionReplay waits p.auth tenantId p.time g.cache
  { cache, clock := p.time, passed := if result = .ok () then p :: g.passed else g.passed }

/-- No assertion identifier passed a second time before the `NotOnOrAfter` it first passed with. -/
def ReplayGuard.AtMostOnce (g : ReplayGuard) : Prop :=
  g.passed.Pairwise fun later earlier =>
    earlier.auth.lastAssertionId ≠ none → later.auth.lastAssertionId = earlier.auth.lastAssertionId →
      ∀ limit ∈ earlier.auth.lastAssertionNotOnOrAfter, limit * second ≤ later.time
  deriving Decidable

/-- The entry outlasts the assertion: at most a second of its validity is left, or at most the longest time
to live and the clock reads a whole second. -/
def Presentation.Covered (p : Presentation) : Prop :=
  ∀ limit ∈ p.auth.lastAssertionNotOnOrAfter, p.time < limit * second →
    limit * second - p.time ≤ second ∨ limit * second - p.time ≤ maxReplayTtl * second ∧ second ∣ p.time
  deriving Decidable

def ReplayGuard.Holds (tenantId : Text) (g : ReplayGuard) (p : Presentation) : Prop :=
  ∃ assertionId ∈ p.auth.lastAssertionId, (g.cache.get p.time (assertionCacheKey tenantId assertionId)).isSome
  deriving Decidable

section Check

variable {now limit : Nat}

theorem replayTtl_pos {notOnOrAfter : Option Nat} : 0 < replayTtl notOnOrAfter now := by
  unfold replayTtl
  split
  · decide
  · decide
  · dsimp only
    omega

theorem le_wholeSeconds_iff (d : Nat) : d ≤ max 1 (min (d / second) maxReplayTtl) * second ↔
      d ≤ second ∨ d ≤ maxReplayTtl * second ∧ second ∣ d := by
  have hsplit := Nat.div_add_mod d second
  have hmod := Nat.mod_lt d (show 0 < second by decide)
  generalize d / second = q at *
  generalize d % second = r at *
  subst hsplit
  simp only [second] at hmod ⊢
  omega

theorem limit_le_replayTtl_iff (hlt : now < limit * second) :
    limit * second ≤ now + replayTtl (some limit) now * second ↔
      limit * second - now ≤ second ∨ limit * second - now ≤ maxReplayTtl * second ∧ second ∣ now := by
  have hlimit : limit ≠ 0 := by
    rintro rfl
    simp at hlt
  have hsub : ((limit * second : Nat) - (now : Int)) = (limit * second - now : Nat) := by omega
  have hdiv : ((limit * second : Nat) - (now : Int)).tdiv second = ((limit * second - now) / second : Nat) := by
    rw [hsub, Int.ofNat_tdiv]
  have httl : replayTtl (some limit) now = max 1 (min ((limit * second - now) / second) maxReplayTtl) := by
    simp only [replayTtl, hdiv]
    omega
  have hdvd := Nat.dvd_sub_iff_right hlt.le (dvd_mul_left second limit)
  rw [httl, ← hdvd, ← le_wholeSeconds_iff]
  omega

end Check

section Runs

variable {waits : Bool} {tenantId assertionId : Text} {g : ReplayGuard} {p : Presentation}

/-- What a presentation with an identifier does: it is refused while the identifier is in the cache and the client
waits to hear of it, and otherwise it passes and its identifier is stored. -/
theorem present_cases (waits : Bool) (tenantId : Text) (g : ReplayGuard)
    (hid : p.auth.lastAssertionId = some assertionId) (hne : assertionId ≠ []) :
    (g.cache.get p.time (assertionCacheKey tenantId assertionId)).isSome ∧
        (waits = true → g.present waits tenantId p = { g with clock := p.time }) ∨
      g.cache.get p.time (assertionCacheKey tenantId assertionId) = none ∧
        g.present waits tenantId p =
          { cache := (g.cache.add p.time (assertionCacheKey tenantId assertionId) "1"
              (replayTtl p.auth.lastAssertionNotOnOrAfter p.time * second)).2
            clock := p.time, passed := p :: g.passed } := by
  cases hget : g.cache.get p.time (assertionCacheKey tenantId assertionId) with
  | some w =>
    have hlive : (g.cache.get p.time (assertionCacheKey tenantId assertionId)).isSome := by simp [hget]
    refine .inl ⟨rfl, ?_⟩
    rintro rfl
    simp [ReplayGuard.present, checkAssertionReplay, hid, Bind.bind, TtlCache.add_of_live hlive, require, hget]
  | none =>
    simp [ReplayGuard.present, checkAssertionReplay, hid, Bind.bind, TtlCache.add_of_none hget]

theorem present_anonymous (hid : p.auth.lastAssertionId = none) :
    g.present waits tenantId p = { g with clock := p.time, passed := p :: g.passed } := by
  simp [ReplayGuard.present, checkAssertionReplay, hid]

/-- From the clock on, the identifier of every assertion that passed is in the cache until the assertion's
`NotOnOrAfter`. -/
def ReplayGuard.Remembers (tenantId : Text) (g : ReplayGuard) : Prop :=
  ∀ p ∈ g.passed, ∀ assertionId ∈ p.auth.lastAssertionId, ∀ limit ∈ p.auth.lastAssertionNotOnOrAfter,
    ∀ t, g.clock ≤ t → t < limit * second → (g.cache.get t (assertionCacheKey tenantId assertionId)).isSome

/-- What a presentation has to meet: it is covered, or the client hears that its identifier is in the cache. -/
def ReplayGuard.Safe (waits : Bool) (tenantId : Text) (g : ReplayGuard) (p : Presentation) : Prop :=
  p.auth.lastAssertionId ≠ some [] ∧ (g.Holds tenantId p ∧ waits = true ∨ ¬ g.Holds tenantId p ∧ p.Covered)
  deriving Decidable

/-- A safe presentation passes without an identifier, is refused, or passes with one that is not in the cache and is
covered. -/
theorem present_of_safe {P : ReplayGuard → Prop} (hp : g.Safe waits tenantId p)
    (hanonymous : p.auth.lastAssertionId = none → P { g with clock := p.time, passed := p :: g.passed })
    (hrefused : P { g with clock := p.time })
    (hpassed : ∀ assertionId, p.auth.lastAssertionId = some assertionId → p.Covered →
      g.cache.get p.time (assertionCacheKey tenantId assertionId) = none → P
        { cache := (g.cache.add p.time (assertionCacheKey tenantId assertionId) "1"
            (replayTtl p.auth.lastAssertionNotOnOrAfter p.time * second)).2
          clock := p.time, passed := p :: g.passed }) : P (g.present waits tenantId p) := by
  cases hid : p.auth.lastAssertionId with
  | none =>
    rw [present_anonymous hid]
    exact hanonymous hid
  | some assertionId =>
    have hne : assertionId ≠ [] := fun h => hp.1 (by rw [hid, h])
    rcases present_cases waits tenantId g hid hne with ⟨hlive, heq⟩ | ⟨hfree, heq⟩
    · have hholds : g.Holds tenantId p := ⟨assertionId, hid, hlive⟩
      rw [heq (hp.2.resolve_right fun h => h.1 hholds).2]
      exact hrefused
    · have hholds : ¬ g.Holds tenantId p := by simp [ReplayGuard.Holds, hid, hfree]
      rw [heq]
      exact hpassed assertionId hid (hp.2.resolve_left fun h => hholds h.1).2 hfree

theorem remembers_present (hg : g.Remembers tenantId) (hclock : g.clock ≤ p.time) (hp : g.Safe waits tenantId p) :
    (g.present waits tenantId p).Remembers tenantId := by
  have hold : ∀ q ∈ g.passed, ∀ id ∈ q.auth.lastAssertionId, ∀ limit ∈ q.auth.lastAssertionNotOnOrAfter, ∀ t,
      p.time ≤ t → t < limit * second → (g.cache.get t (assertionCacheKey tenantId id)).isSome :=
    fun q hq id hid limit hlimit t ht => hg q hq id hid limit hlimit t (hclock.trans ht)
  refine present_of_safe hp (fun hid => ?_) hold fun assertionId hid hcovered hfree => ?_
  · intro q hq id hqid limit hlimit t ht hlt
    rcases mem_cons.mp hq with rfl | hq
    · simp [hid] at hqid
    · exact hold q hq id hqid limit hlimit t ht hlt
  · intro q hq id hqid limit hlimit t ht hlt
    rcases mem_cons.mp hq with rfl | hq
    · obtain rfl : assertionId = id := by simpa [hid] using hqid
      apply TtlCache.isSome_get_add_self hfree
      have hvalid : q.time < limit * second := ht.trans_lt hlt
      have hle := (limit_le_replayTtl_iff hvalid).mpr (hcovered limit hlimit hvalid)
      rw [show q.auth.lastAssertionNotOnOrAfter = some limit from hlimit]
      omega
    · exact TtlCache.isSome_get_add (hold q hq id hqid limit hlimit t ht hlt)

theorem atMostOnce_present (hg : g.Remembers tenantId) (honce : g.AtMostOnce) (hclock : g.clock ≤ p.time)
    (hp : g.Safe waits tenantId p) : (g.present waits tenantId p).AtMostOnce := by
  refine present_of_safe hp (fun hid => ?_) honce fun assertionId hid _ hfree => ?_
  · refine pairwise_cons.mpr ⟨fun q hq hqid hsame => ?_, honce⟩
    exact absurd (hsame.symm.trans hid) hqid
  · refine pairwise_cons.mpr ⟨fun q hq hqid hsame limit hlimit => ?_, honce⟩
    by_contra hlt
    have hlive := hg q hq assertionId (hsame.symm.trans hid) limit hlimit p.time hclock (Nat.lt_of_not_le hlt)
    simp [hfree] at hlive

/-- In every sequence of presentations at non-decreasing times, each of which names its assertion and is
covered unless the client hears that the identifier is in the cache, no identifier passes twice within the
validity. -/
theorem covered_presentations_pass_at_most_once (waits : Bool) (l : List Presentation)
    (horder : l.Pairwise fun p q => p.time ≤ q.time)
    (hsafe : Along (ReplayGuard.present waits tenantId) (ReplayGuard.Safe waits tenantId) {} l) :
    (run (ReplayGuard.present waits tenantId) {} l).AtMostOnce := by
  have hclock : Along (ReplayGuard.present waits tenantId) (fun g p => g.clock ≤ p.time) {} l :=
    along_of_sorted (fun _ _ => rfl) horder fun p _ => Nat.zero_le _
  have hinv : (run (ReplayGuard.present waits tenantId) {} l).Remembers tenantId ∧
      (run (ReplayGuard.present waits tenantId) {} l).AtMostOnce := by
    apply invariant_of_along (I := fun g : ReplayGuard => g.Remembers tenantId ∧ g.AtMostOnce)
      (P := fun g p => g.Safe waits tenantId p ∧ g.clock ≤ p.time)
    · intro g p hg hp
      exact ⟨remembers_present hg.1 hp.2 hp.1, atMostOnce_present hg.1 hg.2 hp.2 hp.1⟩
    · exact ⟨fun _ hmem => absurd hmem not_mem_nil, List.Pairwise.nil⟩
    · exact fun l₁ p l₂ hl => ⟨hsafe l₁ p l₂ hl, hclock l₁ p l₂ hl⟩
  exact hinv.2

theorem uncovered_presentation_passes_again (hid : p.auth.lastAssertionId = some assertionId) (hne : assertionId ≠ [])
    (hfree : ¬ g.Holds tenantId p) (hp : ¬ p.Covered) :
    ∃ t, p.time ≤ t ∧ (∀ limit ∈ p.auth.lastAssertionNotOnOrAfter, t < limit * second) ∧
      (run (ReplayGuard.present waits tenantId) g [p, { p with time := t }]).passed =
        { p with time := t } :: p :: g.passed := by
  have hnone : g.cache.get p.time (assertionCacheKey tenantId assertionId) = none := by
    rw [← Option.not_isSome_iff_eq_none]
    exact fun hsome => hfree ⟨assertionId, hid, hsome⟩
  obtain ⟨limit, hlimit, hvalid, hgap⟩ : ∃ limit ∈ p.auth.lastAssertionNotOnOrAfter, p.time < limit * second ∧
      ¬ (limit * second - p.time ≤ second ∨ limit * second - p.time ≤ maxReplayTtl * second ∧ second ∣ p.time) := by
    simpa [Presentation.Covered] using hp
  rw [← limit_le_replayTtl_iff hvalid] at hgap
  have hlimit : p.auth.lastAssertionNotOnOrAfter = some limit := hlimit
  have hpos : 0 < replayTtl (some limit) p.time * second := Nat.mul_pos replayTtl_pos (by decide)
  refine ⟨p.time + replayTtl (some limit) p.time * second, by omega, fun n hn => ?_, ?_⟩
  · obtain rfl : limit = n := by simpa [hlimit] using hn
    omega
  · have hfirst := ((present_cases waits tenantId g hid hne).resolve_left fun h => by simp [hnone] at h).2
    rw [hlimit] at hfirst
    have hexpired := TtlCache.get_add_eq_none (v := "1".toList) hnone hpos (le_refl _)
    have hagain : (g.present waits tenantId p).cache.get (p.time + replayTtl (some limit) p.time * second)
        (assertionCacheKey tenantId assertionId) = none := by rw [hfirst]; exact hexpired
    rw [run_cons, run_cons, run_nil]
    have hsecond := present_cases waits tenantId (g.present waits tenantId p)
      (p := { p with time := p.time + replayTtl (some limit) p.time * second }) hid hne
    rw [(hsecond.resolve_left fun h => by simp [hagain] at h).2, hfirst]

def assertion (seconds : Nat) : SamlAuth where
  lastAssertionId := some "_a1".toList
  lastAssertionNotOnOrAfter := some seconds

/-- An assertion that is valid for an hour passes again when its entry has expired; with a client that does not wait,
one that is valid for five minutes passes again a second later. -/
theorem assertion_passes_twice :
    let late : List Presentation := [⟨assertion 3600, 0⟩, ⟨assertion 3600, 600 * second⟩]
    let early : List Presentation := [⟨assertion 300, 0⟩, ⟨assertion 300, second⟩]
    (∀ p ∈ late, p.time < 3600 * second) ∧ (∀ p ∈ early, p.time < 300 * second) ∧
      (∀ waits, ¬ (run (ReplayGuard.present waits "t") {} late).AtMostOnce) ∧
      ¬ (run (ReplayGuard.present false "t") {} early).AtMostOnce := by
  decide +kernel

theorem uncovered_presentation_passes_again_hour : ∃ t, 0 ≤ t ∧ (∀ limit ∈ some 3600, t < limit * second) ∧
    (run (ReplayGuard.present true []) {} [⟨assertion 3600, 0⟩, ⟨assertion 3600, t⟩]).passed =
      [⟨assertion 3600, t⟩, ⟨assertion 3600, 0⟩] :=
  uncovered_presentation_passes_again (p := ⟨assertion 3600, 0⟩) rfl (by decide) (by decide) (by decide)

theorem covered_presentations_pass_at_most_once_five_minutes :
    (run (ReplayGuard.present true "t") {} [⟨assertion 300, 0⟩, ⟨assertion 300, 299500000⟩]).AtMostOnce :=
  covered_presentations_pass_at_most_once true _ (by decide) (by decide +kernel)

end Runs

end Saml
end WeftId
