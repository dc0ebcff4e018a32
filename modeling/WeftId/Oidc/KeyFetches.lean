import WeftId.Lib.Run

/-!
The key set of an upstream connection, fetched as the logout tokens posted for it ask.  A stored key set serves for
an hour and a fetch is forced once a minute at most, but a fetch that fails leaves nothing behind.
-/

namespace WeftId

open List Run

/-- What a fetch of the key set gives, if anything, and how long it takes. -/
structure KeyFetch (κ : Type) where
  document : Option κ
  duration : Nat := 0

/-- The clocks count nanoseconds. -/
def KeyCache.second : Nat := 1000000000

/-- The stored key set with the time it was fetched at, and the times at which fetches started, newest first: those
for want of a stored one, and those forced by a signature. -/
structure KeyCache (κ : Type) where
  now : Nat := 0
  entry : Option (Nat × κ) := none
  lastRefetch : Option Nat := none
  starts : Bool → List Nat := fun _ => []

/-- A logout token that arrives after some time: whether its header is one of a logout token, under which key sets
its signature fails, and what the fetches made for it would give. -/
structure LogoutPost (κ : Type) where
  wait : Nat := 0
  readable : Bool := true
  forged : κ → Bool
  first : KeyFetch κ
  second : KeyFetch κ

namespace KeyCache

variable {κ : Type}

def getJwks (parses : κ → Bool) (forced : Bool) (answer : KeyFetch κ) (c : KeyCache κ) : KeyCache κ × Option κ :=
  match c.entry.filter (c.now - ·.1 < 3600 * second) with
  | some (_, keys) => (c, (some keys).filter parses)
  | none =>
    let after := { c with
      now := c.now + answer.duration, starts := Function.update c.starts forced (c.now :: c.starts forced) }
    ({ after with entry := answer.document.map (after.now, ·) }, answer.document.filter parses)

def refreshJwks (parses : κ → Bool) (answer : KeyFetch κ) (c : KeyCache κ) : KeyCache κ × Option κ :=
  getJwks parses true answer { c with entry := none }

def mayRefetch (c : KeyCache κ) : Bool := ∀ last ∈ c.lastRefetch, 60 * second ≤ c.now - last

/-- The key set under which the signature is judged in the end, if there is one. -/
def validateLogoutToken (parses : κ → Bool) (post : LogoutPost κ) (c : KeyCache κ) : KeyCache κ × Option κ :=
  if ¬ post.readable then (c, none)
  else
    match getJwks parses false post.first c with
    | (c, none) => (c, none)
    | (c, some keys) =>
      if post.forged keys ∧ c.mayRefetch then refreshJwks parses post.second { c with lastRefetch := some c.now }
      else (c, some keys)

def step (parses : κ → Bool) (c : KeyCache κ) (post : LogoutPost κ) : KeyCache κ :=
  (validateLogoutToken parses post { c with now := c.now + post.wait }).1

def fetches (c : KeyCache κ) : List Nat := c.starts false ++ c.starts true

def interval (forced : Bool) : Nat := if forced then 60 * second else 3600 * second

structure Paced (c : KeyCache κ) : Prop where
  gaps : ∀ forced, (c.starts forced).Pairwise fun later earlier => earlier + interval forced ≤ later
  forced : ∀ s ∈ c.starts true, ∃ last ∈ c.lastRefetch, s ≤ last
  stored : ∀ s ∈ c.starts false, ∃ e ∈ c.entry, s ≤ e.1
  entry : ∀ e ∈ c.entry, e.1 ≤ c.now

variable {parses : κ → Bool} {c : KeyCache κ} {l : List Nat} {t d n : Nat}

theorem le_of_gaps {a : Nat} (h : (a :: l).Pairwise fun later earlier => earlier + d ≤ later)
    (hstart : ∀ s ∈ a :: l, t ≤ s) : t + l.length * d ≤ a := by
  induction l generalizing a with
  | nil => simpa using hstart
  | cons b l ih =>
    rw [pairwise_cons] at h
    have hb := ih h.2 fun s hs => hstart s (mem_cons_of_mem _ hs)
    have hab := h.1 b mem_cons_self
    rw [length_cons, Nat.succ_mul]
    omega

theorem countP_window_le (h : l.Pairwise fun later earlier => earlier + d ≤ later) (hd : 60 * second < n * d) :
    (l.countP fun s => t ≤ s ∧ s ≤ t + 60 * second) ≤ n := by
  rw [countP_eq_length_filter]
  have hgaps := h.filter fun s => decide (t ≤ s ∧ s ≤ t + 60 * second)
  have hmem : ∀ s ∈ l.filter fun s => decide (t ≤ s ∧ s ≤ t + 60 * second), t ≤ s ∧ s ≤ t + 60 * second := by simp
  cases hl : l.filter fun s => decide (t ≤ s ∧ s ≤ t + 60 * second) with
  | nil => exact Nat.zero_le n
  | cons a rest =>
    rw [hl] at hgaps hmem
    have hle := le_of_gaps hgaps fun s hs => (hmem s hs).1
    have ha := (hmem a mem_cons_self).2
    by_contra hlong
    have hmul := Nat.mul_le_mul_right d (Nat.le_of_lt_succ (Nat.not_le.mp hlong))
    omega

variable {answer : KeyFetch κ} {forced : Bool}

theorem Paced.gaps_start (h : Paced c) (hnow : ∀ s ∈ c.starts forced, s + interval forced ≤ c.now) (b : Bool) :
    (Function.update c.starts forced (c.now :: c.starts forced) b).Pairwise fun later earlier =>
      earlier + interval b ≤ later := by
  by_cases hb : b = forced
  · subst hb
    rw [Function.update_self]
    exact pairwise_cons.mpr ⟨hnow, h.gaps b⟩
  · rw [Function.update_of_ne hb]
    exact h.gaps b

theorem Paced.getJwks (h : Paced c) (hanswer : answer.document.isSome) : Paced (getJwks parses false answer c).1 := by
  unfold KeyCache.getJwks
  split
  · exact h
  · rename_i hstale
    obtain ⟨keys, hkeys⟩ := Option.isSome_iff_exists.mp hanswer
    have hold : ∀ s ∈ c.starts false, s + 3600 * second ≤ c.now := by
      intro s hs
      obtain ⟨e, he, hle⟩ := h.stored s hs
      have hage : ¬ c.now - e.1 < 3600 * second := by simpa using Option.filter_eq_none_iff.mp hstale e he
      unfold second at hage ⊢
      omega
    refine ⟨h.gaps_start hold, h.forced, fun s hs => ⟨(c.now + answer.duration, keys), by simp [hkeys], ?_⟩, by simp⟩
    rcases mem_cons.mp hs with rfl | hs
    · exact Nat.le_add_right _ _
    · have := hold s hs
      omega

theorem Paced.refreshJwks (h : Paced c) (hmay : c.mayRefetch = true) (hanswer : answer.document.isSome) :
    Paced (refreshJwks parses answer { c with lastRefetch := some c.now }).1 := by
  obtain ⟨keys, hkeys⟩ := Option.isSome_iff_exists.mp hanswer
  have hold : ∀ s ∈ c.starts true, s + 60 * second ≤ c.now := by
    intro s hs
    obtain ⟨last, hlast, hle⟩ := h.forced s hs
    have hgap := of_decide_eq_true hmay last hlast
    unfold second at hgap ⊢
    omega
  refine ⟨h.gaps_start hold, fun s hs => ⟨c.now, rfl, ?_⟩, fun s hs => ?_,
    by simp [KeyCache.refreshJwks, KeyCache.getJwks]⟩
  · rcases mem_cons.mp hs with rfl | hs
    · exact Nat.le_refl _
    · exact Nat.le_of_add_right_le (hold s hs)
  · obtain ⟨e, he, hle⟩ := h.stored s hs
    have hnow := h.entry e he
    exact ⟨(c.now + answer.duration, keys), by simp [KeyCache.refreshJwks, KeyCache.getJwks, hkeys],
      by dsimp only; omega⟩

def Answered (post : LogoutPost κ) : Prop := post.first.document.isSome ∧ post.second.document.isSome

theorem Paced.step (h : Paced c) {post : LogoutPost κ} (hpost : Answered post) : Paced (step parses c post) := by
  have hwait : Paced { c with now := c.now + post.wait } :=
    ⟨h.gaps, h.forced, h.stored, fun e he => Nat.le_add_right_of_le (h.entry e he)⟩
  have hfirst : Paced (KeyCache.getJwks parses false post.first _).1 := hwait.getJwks hpost.1
  unfold KeyCache.step validateLogoutToken
  split
  · exact hwait
  · split
    · rename_i heq
      exact heq ▸ hfirst
    · rename_i c' keys heq
      rw [heq] at hfirst
      split_ifs with hforged
      · exact hfirst.refreshJwks hforged.2 hpost.2
      · exact hfirst

/-- As long as no fetch fails, three fetches at most start within 60 seconds. -/
theorem key_fetches_bounded {posts : List (LogoutPost κ)} (h : ∀ post ∈ posts, Answered post) (t : Nat) :
    ((run (step parses) {} posts).fetches.countP fun s => t ≤ s ∧ s ≤ t + 60 * second) ≤ 3 := by
  have hpaced : Paced (run (KeyCache.step parses) {} posts) :=
    invariant_of_along (P := fun _ post => Answered post) (fun _ _ hc hpost => hc.step hpost)
      ⟨fun _ => .nil, nofun, nofun, nofun⟩ (along_of_forall h)
  have hplain := countP_window_le (t := t) (n := 1) (hpaced.gaps false) (by decide)
  have hforced := countP_window_le (t := t) (n := 2) (hpaced.gaps true) (by decide)
  rw [fetches, countP_append]
  omega

/-- A forged token, and what every fetch made for it gives. -/
def forgedPost (document : Option Unit) : LogoutPost Unit where
  forged _ := true
  first := { document }
  second := { document }

theorem key_fetches_bounded_forged :
    let c := run (step fun _ => true) {} (List.replicate 4 (forgedPost (some ())))
    c.fetches = [0, 0] ∧ (c.fetches.countP fun s => 0 ≤ s ∧ s ≤ 0 + 60 * second) ≤ 3 :=
  ⟨by decide, key_fetches_bounded (by simp [Answered, forgedPost]) 0⟩

/-- Every forged token has the key set fetched while the provider does not answer. -/
theorem failing_fetches_unbounded :
    ((run (step fun _ => true) {} (List.replicate 4 (forgedPost none))).fetches.countP fun s =>
      0 ≤ s ∧ s ≤ 0 + 60 * second) = 4 := by
  decide

end KeyCache

end WeftId
