import WeftId.Scim.MemberFilter

/-!
The path `attr[value eq "v"]` of one element, alone or after a URN, and what is read from it.  A URN is cut off
at the last colon of the whole path, so a colon in the value is taken for the end of a URN.
-/

namespace WeftId.Scim

open List

inductive PathUrn
  | absent
  | coreUser
  | coreGroup
  | enterprise

def PathUrn.text : PathUrn → Text
  | .absent => []
  | .coreUser => "urn:ietf:params:scim:schemas:core:2.0:User:"
  | .coreGroup => "urn:ietf:params:scim:schemas:core:2.0:Group:"
  | .enterprise => enterpriseUserSchema ++ ":"

def filterBody (v : Text) : Text := "value eq " ++ doubleQuote :: (v ++ [doubleQuote])

def filterPath (urn : PathUrn) (attr v : Text) : Text := urn.text ++ (attr ++ '[' :: (filterBody v ++ [']']))

def PathUrn.attribute (env : Env) (attr : Text) : PathUrn → Text
  | .enterprise => "enterprise." ++ env.lower attr
  | _ => env.lower attr

def PathUrn.Spares (v : Text) : PathUrn → Prop
  | .absent => v.count ':' < 3
  | .coreUser => ':' ∉ v
  | .coreGroup => ':' ∉ v
  | .enterprise => False

/-- `str.lower` on ASCII text, on a text that starts with ASCII text, and on one that is cut at a bracket. -/
structure LowersCharacters (env : Env) : Prop where
  ascii : ∀ s : Text, (∀ c ∈ s, c.toNat < 128) → env.lower s = s.map Char.toLower
  append : ∀ s t : Text, (∀ c ∈ s, c.toNat < 128) → ∃ rest, env.lower (s ++ t) = s.map Char.toLower ++ rest
  bracket : ∀ s t : Text, ':' ∉ s → ∃ front rest, env.lower (s ++ '[' :: t) = front ++ '[' :: rest ∧ ':' ∉ front

theorem toLower_ne_colon {c : Char} (h : c ≠ ':') : c.toLower ≠ ':' := by
  unfold Char.toLower
  split
  · rename_i hupper
    intro heq
    have hval : (c.val + 32).toNat = 58 := congrArg Char.toNat heq
    have hle : c.val.toNat ≤ 90 := hupper.2
    have hge : 65 ≤ c.val.toNat := hupper.1
    have hshift : UInt32.toNat 32 = 32 := rfl
    rw [UInt32.toNat_add] at hval
    omega
  · exact h

theorem lowersCharacters_ascii : LowersCharacters Env.ascii where
  ascii _ _ := rfl
  append s t _ := ⟨t.map Char.toLower, map_append⟩
  bracket s t hs := by
    refine ⟨s.map Char.toLower, t.map Char.toLower, map_append, fun hmem => ?_⟩
    obtain ⟨c, hc, hlower⟩ := mem_map.mp hmem
    exact toLower_ne_colon (fun heq => hs (heq ▸ hc)) hlower

variable {env : Env} {attr v : Text} {urn : PathUrn}

theorem parseEqFilter_subset {body name : Text} (h : parseEqFilter env body = some (name, v)) : v ⊆ body := by
  obtain ⟨op, raw, hwords, -, rfl⟩ := parseEqFilter_eq_some_iff.mp h
  have hraw : raw ⊆ body := Text.subset_of_mem_splitWords (n := 2) (by simp [hwords])
  intro c hc
  unfold unquote at hc
  split_ifs at hc
  · exact hraw (Text.strip_subset raw (drop_subset _ _ (dropLast_subset _ hc)))
  · exact hraw (Text.strip_subset raw hc)

theorem not_reads_of_cut {path name : Text} (hcut : 3 ≤ path.strip.count ':') (hv : ':' ∈ v) :
    (bracket path).bind (parseEqFilter env) ≠ some (name, v) := by
  intro h
  obtain ⟨body, hbody, hfilter⟩ := Option.bind_eq_some_iff.mp h
  unfold bracket at hbody
  split_ifs at hbody
  obtain rfl := Option.some.inj hbody
  have hmem := takeWhile_subset _ (Text.strip_subset _ (parseEqFilter_subset hfilter hv))
  have hrest := dropWhile_subset _ (drop_subset _ _ hmem)
  rw [stripUrn, if_pos hcut] at hrest
  exact Text.notMem_afterLast _ hrest

theorem count_filterPath (hattr : ':' ∉ attr) :
    (filterPath urn attr v).count ':' = urn.text.count ':' + v.count ':' := by
  have hbody : (filterBody v).count ':' = v.count ':' := by
    unfold filterBody
    simp [doubleQuote]
  simp [filterPath, count_eq_zero_of_not_mem hattr, hbody]

theorem strip_filterBody (v : Text) : Text.strip (filterBody v) = filterBody v := by
  have hconcat : 'v' :: (("alue eq " ++ doubleQuote :: v) ++ [doubleQuote]) = filterBody v :=
    congrArg _ (append_assoc ..)
  rw [← hconcat]
  exact Text.strip_enclosed rfl rfl

theorem strip_filterPath (hattr : ∀ c ∈ attr, Text.isSpace c = false) :
    (filterPath urn attr v).strip = filterPath urn attr v := by
  obtain ⟨c, rest, hfront, hc⟩ : ∃ c rest, urn.text ++ (attr ++ '[' :: filterBody v) = c :: rest ∧
      Text.isSpace c = false := by
    cases urn with
    | absent =>
      cases attr with
      | nil => exact ⟨'[', _, rfl, rfl⟩
      | cons c attr => exact ⟨c, _, rfl, hattr c mem_cons_self⟩
    | _ => exact ⟨'u', _, rfl, rfl⟩
  have hpath : filterPath urn attr v = c :: (rest ++ [']']) := by
    rw [← cons_append, ← hfront]
    simp [filterPath]
  rw [hpath]
  exact Text.strip_enclosed hc rfl

theorem unquote_enclosed (v : Text) : unquote (doubleQuote :: (v ++ [doubleQuote])) = v := by
  have hlast : (doubleQuote :: (v ++ [doubleQuote])).getLast? = some doubleQuote := by
    rw [← cons_append, getLast?_concat]
  rw [unquote, if_pos ⟨by simp, hlast.symm, .inr rfl⟩]
  exact dropLast_concat

section Reading

variable (hlower : LowersCharacters env) (hattr : ∀ c ∈ attr, c ≠ ':' ∧ c ≠ '[' ∧ Text.isSpace c = false)

include hlower hattr

theorem isPrefixOf_lower_filterPath_iff : (env.lower (enterpriseUserSchema ++ ":")).isPrefixOf
    (env.lower (filterPath urn attr v)) = true ↔ urn = .enterprise := by
  rw [hlower.ascii _ (by decide), filterPath]
  obtain ⟨rest, hpath⟩ := hlower.append urn.text (attr ++ '[' :: (filterBody v ++ [']'])) (by cases urn <;> decide)
  cases urn with
  | absent =>
    obtain ⟨front, rest, hlowered, hfront⟩ := hlower.bracket attr (filterBody v ++ [']']) fun hc => (hattr ':' hc).1 rfl
    have hcolon : ':' ∈ (enterpriseUserSchema ++ ":").map Char.toLower := by decide
    have hopen : '[' ∉ (enterpriseUserSchema ++ ":").map Char.toLower := by decide
    change isPrefixOf _ (env.lower (attr ++ '[' :: (filterBody v ++ [']']))) = true ↔ _
    rw [hlowered, Text.isPrefixOf_append_of_notMem hcolon hopen hfront]
    exact iff_of_false Bool.false_ne_true nofun
  | enterprise =>
    rw [hpath, List.isPrefixOf_iff_prefix]
    exact iff_of_true (prefix_append _ rest) rfl
  | _ =>
    rw [hpath]
    exact iff_of_false Bool.false_ne_true nofun

variable (hv : ']' ∉ v)

include hv

theorem reads_of_stripUrn {path : Text} (hpath : stripUrn path = attr ++ '[' :: (filterBody v ++ [']'])) :
    (stripUrn path).takeWhile (· ≠ '[') = attr ∧
      (bracket path).bind (parseEqFilter env) = some ("value".toList, v) := by
  have hopen : '[' ∉ attr := fun hc => (hattr '[' hc).2.1 rfl
  have hbody : ']' ∉ filterBody v := by
    unfold filterBody
    simp [doubleQuote, hv]
  have hbracket : bracket path = some (filterBody v) := by
    unfold bracket
    rw [hpath, Text.afterFirst_append hopen, if_pos (by simp), Text.takeWhile_ne_append hbody, strip_filterBody]
  have hwords : Text.splitWords 2 (filterBody v) =
      ["value".toList, "eq".toList, doubleQuote :: (v ++ [doubleQuote])] := rfl
  rw [hbracket, hpath, Text.takeWhile_ne_append hopen, Option.bind_some, parseEqFilter_eq_some_iff]
  refine ⟨rfl, "eq", _, hwords, hlower.ascii _ (by decide), ?_⟩
  rw [Text.strip_enclosed rfl rfl, unquote_enclosed]

theorem reads_iff_of_stripUrn {P : Prop} (hurn : urn ≠ .enterprise)
    (hkept : P → stripUrn (filterPath urn attr v) = attr ++ '[' :: (filterBody v ++ [']']))
    (hcut : ¬ P → 3 ≤ (filterPath urn attr v).count ':' ∧ ':' ∈ v) :
    normalisePatchPathWithFilter env (some (filterPath urn attr v)) =
      (some (env.lower attr), some ("value".toList, v)) ↔ P := by
  have hstrip : (filterPath urn attr v).strip = filterPath urn attr v := strip_filterPath fun c hc => (hattr c hc).2.2
  have hplain := mt (isPrefixOf_lower_filterPath_iff (v := v) hlower hattr).mp hurn
  rw [normalise_of_not_enterprise (by rwa [hstrip, ← Bool.not_eq_true])]
  by_cases hP : P
  · obtain ⟨hcollection, hfilter⟩ := reads_of_stripUrn hlower hattr hv (hkept hP)
    rw [hcollection, hfilter]
    exact iff_of_true rfl hP
  · refine iff_of_false (fun h => ?_) hP
    obtain ⟨hcount, hcolon⟩ := hcut hP
    exact not_reads_of_cut (by rwa [hstrip]) hcolon (Prod.mk.inj h).2

end Reading

/-- A path `attr[value eq "v"]` is read back just if its colons are those of a core URN in front of it, or it has no
URN and fewer than three colons. -/
theorem filter_path_reads_back_iff (hlower : LowersCharacters env) (urn : PathUrn)
    (hattr : ∀ c ∈ attr, c ≠ ':' ∧ c ≠ '[' ∧ Text.isSpace c = false) (hv : ']' ∉ v) :
    normalisePatchPathWithFilter env (some (filterPath urn attr v)) =
      (some (urn.attribute env attr), some ("value".toList, v)) ↔ urn.Spares v := by
  have hstrip : (filterPath urn attr v).strip = filterPath urn attr v := strip_filterPath fun c hc => (hattr c hc).2.2
  have hcolon : ':' ∉ attr := fun h => (hattr ':' h).1 rfl
  have hcount : (filterPath .absent attr v).count ':' = v.count ':' := (count_filterPath hcolon).trans (zero_add _)
  have hcore : ∀ front, urn.text = front ++ [':'] → 3 ≤ urn.text.count ':' → urn ≠ .enterprise →
      (normalisePatchPathWithFilter env (some (filterPath urn attr v)) =
        (some (env.lower attr), some ("value".toList, v)) ↔ ':' ∉ v) := by
    intro front hfront hurn hcore
    have hmany : 3 ≤ (filterPath urn attr v).count ':' := by
      rw [count_filterPath hcolon]
      exact Nat.le_add_right_of_le hurn
    refine reads_iff_of_stripUrn hlower hattr hv hcore (fun h => ?_) fun h => ⟨hmany, not_not.mp h⟩
    have hrest : ':' ∉ filterPath .absent attr v :=
      List.count_eq_zero.mp (hcount.trans (count_eq_zero_of_not_mem h))
    have hpath : filterPath urn attr v = front ++ ':' :: filterPath .absent attr v := by
      rw [filterPath, hfront, append_assoc]
      rfl
    rw [stripUrn, hstrip, if_pos hmany, hpath, Text.afterLast_append hrest]
    rfl
  cases urn with
  | absent =>
    refine reads_iff_of_stripUrn hlower hattr hv nofun (fun h => ?_) fun h => ?_
    · have hfew : ¬ 3 ≤ (filterPath .absent attr v).count ':' := by
        rw [hcount]
        exact not_le.mpr h
      rw [stripUrn, hstrip, if_neg hfew]
      rfl
    · have hmany : 3 ≤ v.count ':' := Nat.le_of_not_lt h
      exact ⟨hcount ▸ hmany, count_pos_iff.mp (lt_of_lt_of_le (by decide) hmany)⟩
  | coreUser => exact hcore "urn:ietf:params:scim:schemas:core:2.0:User" rfl (by decide) nofun
  | coreGroup => exact hcore "urn:ietf:params:scim:schemas:core:2.0:Group" rfl (by decide) nofun
  | enterprise =>
    have hfound := (isPrefixOf_lower_filterPath_iff (v := v) hlower hattr).mpr rfl
    simp only [normalisePatchPathWithFilter, hstrip, hfound]
    simp [PathUrn.Spares]

theorem member_path_reads_back : normalisePatchPathWithFilter Env.ascii
    (some (filterPath .coreGroup "members" "a b")) =
      (some "members".toList, some ("value".toList, "a b".toList)) :=
  (filter_path_reads_back_iff lowersCharacters_ascii .coreGroup (by decide) (by decide)).mpr
    (show ':' ∉ "a b".toList by decide)

theorem value_colons_cut_as_urn : normalisePatchPathWithFilter Env.ascii
    (some (filterPath .absent "members" "a:b:c:d")) = (some ['d', doubleQuote, ']'], none) := by
  decide +kernel

end WeftId.Scim
