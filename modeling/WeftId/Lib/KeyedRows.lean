import Mathlib.Data.List.Induction
import Mathlib.Data.List.Nodup

/-!
Tables with a key: the insert whose row takes the place of the row with its key, alone and for a list of rows.
-/

namespace KeyedRows

open List

variable {ρ κ : Type*} [DecidableEq κ] {key : ρ → κ} {row r : ρ} {rows new : List ρ}

/-- `INSERT … ON CONFLICT (key) DO UPDATE`; also the assignment to a key of a dict. -/
def store (key : ρ → κ) (row : ρ) (rows : List ρ) : List ρ :=
  if rows.any (key · = key row) then rows.map fun r => if key r = key row then row else r else rows ++ [row]

theorem mem_store : r ∈ store key row rows ↔ r = row ∨ r ∈ rows ∧ key r ≠ key row := by
  unfold store
  split
  · rename_i hany
    obtain ⟨old, hold, hkey⟩ := any_eq_true.mp hany
    rw [mem_map]
    constructor
    · rintro ⟨r', hr', rfl⟩
      by_cases hr : key r' = key row
      · exact .inl (if_pos hr)
      · exact .inr (by rw [if_neg hr]; exact ⟨hr', hr⟩)
    · rintro (rfl | ⟨hr, hne⟩)
      · exact ⟨old, hold, if_pos (of_decide_eq_true hkey)⟩
      · exact ⟨r, hr, if_neg hne⟩
  · rename_i hnone
    have hne : ∀ r ∈ rows, key r ≠ key row := by simpa using hnone
    rw [mem_append, mem_singleton, or_comm]
    exact or_congr_right ⟨fun hr => ⟨hr, hne r hr⟩, And.left⟩

theorem nodup_store (h : (rows.map key).Nodup) : ((store key row rows).map key).Nodup := by
  unfold store
  split
  · have hkeys : (key ∘ fun r => if key r = key row then row else r) = key := by
      funext r
      by_cases hr : key r = key row <;> simp [hr]
    rwa [map_map, hkeys]
  · rename_i hnone
    rw [map_append, map_singleton, ← concat_eq_append, nodup_concat]
    exact ⟨by simpa using hnone, h⟩

/-- Rows that a filter drops may be stored before it. -/
theorem filter_store {p : ρ → Bool} (h : ∀ r, key r = key row → p r = false) :
    (store key row rows).filter p = rows.filter p := by
  unfold store
  split
  · have hp : (p ∘ fun r => if key r = key row then row else r) = p := by
      funext r
      by_cases hr : key r = key row
      · simp [hr, h r hr, h row rfl]
      · simp [hr]
    rw [filter_map, hp]
    refine (map_congr_left fun r hr => if_neg fun hkey => ?_).trans (map_id _)
    rw [mem_filter, h r hkey] at hr
    cases hr.2
  · simp [filter_append, h row rfl]

def Stored (key : ρ → κ) (row : ρ) (rows : List ρ) : Prop := row ∈ rows ∧ ∀ r ∈ rows, key r = key row → r = row

theorem store_eq_self_iff : store key row rows = rows ↔ Stored key row rows := by
  constructor
  · intro h
    refine ⟨h ▸ mem_store.mpr (.inl rfl), fun r hr hkey => ?_⟩
    rw [← h] at hr
    exact (mem_store.mp hr).resolve_right fun hother => hother.2 hkey
  · rintro ⟨hmem, hsole⟩
    rw [store, if_pos (any_eq_true.mpr ⟨row, hmem, decide_eq_true rfl⟩)]
    refine (map_congr_left fun r hr => ?_).trans (map_id rows)
    by_cases hkey : key r = key row
    · rw [if_pos hkey, hsole r hr hkey, id]
    · rw [if_neg hkey, id]

def storeAll (key : ρ → κ) (new rows : List ρ) : List ρ := new.foldl (fun rows row => store key row rows) rows

/-- Of the new rows with one key the last stays. -/
theorem mem_storeAll : r ∈ storeAll key new rows ↔
    new.reverse.find? (key · = key r) = some r ∨ r ∈ rows ∧ ∀ row ∈ new, key row ≠ key r := by
  induction new using reverseRecOn with
  | nil => simp [storeAll]
  | append_singleton new row ih =>
    rw [storeAll, foldl_append, foldl_cons, foldl_nil, mem_store]
    change r = row ∨ r ∈ storeAll key new rows ∧ _ ↔ _
    rw [ih, reverse_append, reverse_singleton, singleton_append]
    by_cases hkey : key row = key r
    · rw [find?_cons_of_pos (by simpa using hkey)]
      constructor
      · rintro (rfl | ⟨-, hne⟩)
        · exact .inl rfl
        · exact absurd hkey.symm hne
      · rintro (hrow | ⟨-, hne⟩)
        · exact .inl (Option.some.inj hrow).symm
        · exact absurd hkey (hne row (mem_append_right _ mem_cons_self))
    · have hne : r ≠ row := fun h => hkey (h ▸ rfl)
      rw [find?_cons_of_neg (by simpa using hkey)]
      simp [hne, hkey, Ne.symm hkey, or_imp, forall_and]

theorem mem_of_mem_storeAll (h : r ∈ storeAll key new rows) : r ∈ new ∨ r ∈ rows :=
  (mem_storeAll.mp h).imp (fun hfound => mem_reverse.mp (mem_of_find?_eq_some hfound)) And.left

theorem stored_storeAll (hnodup : (new.map key).Nodup) (h : row ∈ new) : Stored key row (storeAll key new rows) := by
  have hlast : ∀ r, new.reverse.find? (key · = key row) = some r → r = row := by
    intro r hr
    have hkey : key r = key row := by simpa using find?_some hr
    exact inj_on_of_nodup_map hnodup (mem_reverse.mp (mem_of_find?_eq_some hr)) h hkey
  refine ⟨mem_storeAll.mpr (.inl ?_), fun r hr hkey => ?_⟩
  · obtain ⟨r, hr⟩ := Option.isSome_iff_exists.mp (find?_isSome (p := (key · = key row)).mpr
      ⟨row, mem_reverse.mpr h, decide_eq_true rfl⟩)
    rw [hr, hlast r hr]
  · rcases mem_storeAll.mp hr with hr | ⟨-, hother⟩
    · exact hlast r (by rwa [hkey] at hr)
    · exact absurd hkey.symm (hother row h)

theorem storeAll_eq_self_iff (hnodup : (new.map key).Nodup) :
    storeAll key new rows = rows ↔ ∀ row ∈ new, Stored key row rows := by
  refine ⟨fun h row hrow => h ▸ stored_storeAll hnodup hrow, fun h => ?_⟩
  clear hnodup
  induction new with
  | nil => rfl
  | cons row new ih =>
    rw [storeAll, foldl_cons, store_eq_self_iff.mpr (h row mem_cons_self)]
    exact ih fun row' hrow' => h row' (mem_cons_of_mem row hrow')

/-- Dropping rows and storing others leaves a table as it was only when nothing is dropped. -/
theorem storeAll_filter_eq_self_iff {p : ρ → Bool} (hnodup : (new.map key).Nodup) (hnew : ∀ row ∈ new, p row) :
    storeAll key new (rows.filter p) = rows ↔ (∀ r ∈ rows, p r) ∧ ∀ row ∈ new, Stored key row rows := by
  constructor
  · intro h
    have hkept : ∀ r ∈ rows, p r := by
      intro r hr
      rw [← h] at hr
      exact (mem_of_mem_storeAll hr).elim (hnew r) fun hold => (mem_filter.mp hold).2
    rw [filter_eq_self.mpr hkept] at h
    exact ⟨hkept, (storeAll_eq_self_iff hnodup).mp h⟩
  · rintro ⟨hkept, hstored⟩
    rw [filter_eq_self.mpr hkept]
    exact (storeAll_eq_self_iff hnodup).mpr hstored

end KeyedRows
