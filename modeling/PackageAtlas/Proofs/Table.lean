import Mathlib.Data.Char
import Mathlib.Data.List.Lex
import Mathlib.Data.List.Sort
import Mathlib.Order.Defs.Unbundled
import PackageAtlas.Table

set_option autoImplicit false

/-! # Sorted tables: what an update does to a look-up

`Table.put` and `KeySet.add` are described by what can be found afterwards (`Table.get?_put`,
`Table.mem_put`, `KeySet.mem_add`) and by the order they keep. A sorted table is determined by its
look-ups (`Table.ext_get?`). -/

namespace PackageAtlas

variable {κ α β : Type} [DecidableEq κ]

/-! ## Key sets -/

namespace KeySet

variable [LT κ] [DecidableLT κ]

@[simp] theorem mem_add (key k : κ) (set : KeySet κ) : k ∈ add key set ↔ k = key ∨ k ∈ set := by
  induction set with
  | nil => simp [add]
  | cons first rest ih =>
      simp only [add]
      split
      · next he => subst he; simp
      · split
        · simp
        · simp only [List.mem_cons, ih]
          exact or_left_comm

theorem sorted_add [IsStrictTotalOrder κ (· < ·)] (key : κ) {set : KeySet κ}
    (hs : set.Pairwise (· < ·)) : (add key set).Pairwise (· < ·) := by
  induction set with
  | nil => exact List.pairwise_singleton _ _
  | cons first rest ih =>
      obtain ⟨hhead, hrest⟩ := List.pairwise_cons.1 hs
      simp only [add]
      split
      · exact hs
      · next hne =>
          split
          · next hlt =>
              refine List.pairwise_cons.2 ⟨fun k hk => ?_, hs⟩
              rcases List.mem_cons.1 hk with rfl | hk
              · exact hlt
              · exact trans_of (· < ·) hlt (hhead k hk)
          · next hnlt =>
              refine List.pairwise_cons.2 ⟨fun k hk => ?_, ih hrest⟩
              rcases (mem_add key k rest).1 hk with rfl | hk
              · rcases trichotomous_of (· < ·) first k with h | h | h
                · exact h
                · exact absurd h.symm hne
                · exact absurd h hnlt
              · exact hhead k hk

end KeySet

namespace Table

/-! ## Look-up -/

theorem get?_map (f : α → β) (key : κ) (table : Table κ α) :
    get? key (table.map fun entry => (entry.1, f entry.2)) = (get? key table).map f := by
  induction table with
  | nil => rfl
  | cons entry rest ih =>
      obtain ⟨k, v⟩ := entry
      simp only [List.map_cons, get?, ih]
      split <;> rfl

theorem mem_of_get? {key : κ} {value : α} {table : Table κ α} (h : get? key table = some value) :
    (key, value) ∈ table := by
  induction table with
  | nil => simp [get?] at h
  | cons entry rest ih =>
      obtain ⟨k, v⟩ := entry
      simp only [get?] at h
      split at h
      · next he => simp_all
      · exact List.mem_cons_of_mem _ (ih h)

theorem get?_eq_none_of_forall_ne {key : κ} {table : Table κ α}
    (h : ∀ entry ∈ table, entry.1 ≠ key) : get? key table = none := by
  cases hget : get? key table with
  | none => rfl
  | some value => exact absurd rfl (h _ (mem_of_get? hget))

variable [LT κ]

/-- The keys of `table` stand in strictly increasing order. -/
def Sorted (table : Table κ α) : Prop :=
  table.Pairwise fun a b => a.1 < b.1

instance [DecidableLT κ] (table : Table κ α) : Decidable (Sorted table) :=
  inferInstanceAs (Decidable (table.Pairwise fun a b => a.1 < b.1))

omit [DecidableEq κ] in
theorem sorted_map (f : α → β) {table : Table κ α} (hs : Sorted table) :
    Sorted (table.map fun entry => (entry.1, f entry.2)) :=
  hs.map _ fun _ _ hab => hab

theorem get?_eq_some_iff_mem [IsStrictTotalOrder κ (· < ·)] {key : κ} {value : α}
    {table : Table κ α} (hs : Sorted table) :
    get? key table = some value ↔ (key, value) ∈ table := by
  refine ⟨mem_of_get?, fun hmem => ?_⟩
  induction table with
  | nil => simp at hmem
  | cons entry rest ih =>
      obtain ⟨k, v⟩ := entry
      obtain ⟨hhead, hrest⟩ := List.pairwise_cons.1 hs
      simp only [get?]
      rcases List.mem_cons.1 hmem with heq | hin
      · obtain ⟨rfl, rfl⟩ := Prod.mk.inj heq
        rw [if_pos rfl]
      · have hne : key ≠ k := fun he => irrefl_of (· < ·) k (he ▸ hhead _ hin)
        rw [if_neg hne]
        exact ih hrest hin

/-- Sorted tables with the same look-ups are the same. -/
theorem ext_get? [IsStrictTotalOrder κ (· < ·)] {table other : Table κ α} (hs : Sorted table)
    (ho : Sorted other) (h : ∀ key, get? key table = get? key other) : table = other := by
  have hasymm : Std.Asymm fun a b : κ × α => a.1 < b.1 := ⟨fun _ _ => asymm_of (· < ·)⟩
  refine List.Pairwise.eq_of_mem_iff hs ho ?_
  rintro ⟨key, value⟩
  rw [← get?_eq_some_iff_mem hs, ← get?_eq_some_iff_mem ho, h key]

variable [DecidableLT κ]

/-! ## Look-up after an update -/

theorem get?_put (key k : κ) (value : α) (table : Table κ α) :
    get? k (put key value table) = if k = key then some value else get? k table := by
  induction table with
  | nil => simp [put, get?]
  | cons entry rest ih =>
      obtain ⟨k', v⟩ := entry
      simp only [put]
      split
      · next he =>
          subst he
          simp only [get?]
          split <;> rfl
      · split
        · simp only [get?]
        · next hne _ =>
            simp only [get?, ih]
            by_cases hk : k = k'
            · subst hk
              rw [if_pos rfl, if_pos rfl, if_neg (fun he => hne he.symm)]
            · rw [if_neg hk, if_neg hk]

@[simp] theorem get?_put_self (key : κ) (value : α) (table : Table κ α) :
    get? key (put key value table) = some value := by
  rw [get?_put, if_pos rfl]

/-- The later of two updates of one key wins. -/
@[simp] theorem put_put (key : κ) (value value' : α) (table : Table κ α) :
    put key value (put key value' table) = put key value table := by
  induction table with
  | nil => simp [put]
  | cons entry rest ih =>
      obtain ⟨k, v⟩ := entry
      simp only [put]
      split
      · next he => subst he; simp [put]
      · next hne =>
          split
          · simp [put]
          · next hlt => simp only [put, if_neg hne, if_neg hlt, ih]

theorem put_ne_nil (key : κ) (value : α) (table : Table κ α) : put key value table ≠ [] := by
  intro hnil
  have hget := get?_put_self key value table
  rw [hnil] at hget
  cases hget

/-! ## Values replaced one by one -/

theorem map_put (f : α → β) (key : κ) (value : α) (table : Table κ α) :
    (put key value table).map (fun entry => (entry.1, f entry.2))
      = put key (f value) (table.map fun entry => (entry.1, f entry.2)) := by
  induction table with
  | nil => rfl
  | cons entry rest ih =>
      obtain ⟨k, v⟩ := entry
      simp only [put, List.map_cons]
      split
      · rfl
      · split
        · rfl
        · rw [List.map_cons, ih]

/-! ## Entries -/

/-- The keys of a table with an update are its keys and the new one. -/
theorem keys_put (key : κ) (value : α) (table : Table κ α) :
    (put key value table).map Prod.fst = KeySet.add key (table.map Prod.fst) := by
  induction table with
  | nil => rfl
  | cons entry rest ih =>
      obtain ⟨k, v⟩ := entry
      simp only [put, List.map_cons, KeySet.add]
      split
      · next he => rw [List.map_cons, he]
      · split
        · rfl
        · rw [List.map_cons, ih]

variable [IsStrictTotalOrder κ (· < ·)]

theorem sorted_put (key : κ) (value : α) {table : Table κ α} (hs : Sorted table) :
    Sorted (put key value table) := by
  have hkeys : (table.map Prod.fst).Pairwise (· < ·) := List.pairwise_map.2 hs
  have hadd := KeySet.sorted_add key hkeys
  rw [← keys_put key value table] at hadd
  exact List.pairwise_map.1 hadd

/-- An entry after an update is the new one, or an old one under another key. -/
theorem mem_put {key : κ} {value : α} {table : Table κ α} (hs : Sorted table) (entry : κ × α) :
    entry ∈ put key value table ↔ entry = (key, value) ∨ entry ∈ table ∧ entry.1 ≠ key := by
  obtain ⟨k, v⟩ := entry
  rw [← get?_eq_some_iff_mem (sorted_put key value hs), get?_put, ← get?_eq_some_iff_mem hs]
  by_cases hk : k = key
  · subst hk
    simp [eq_comm]
  · simp [hk]

/-- Two maps that differ only at the value under `key` differ by an update of it. -/
theorem map_eq_put (f g : α → β) {key : κ} {value : α} {table : Table κ α} (hs : Sorted table)
    (hvalue : (key, value) ∈ table)
    (hsame : ∀ entry ∈ table, entry.1 ≠ key → g entry.2 = f entry.2) :
    table.map (fun entry => (entry.1, g entry.2))
      = put key (g value) (table.map fun entry => (entry.1, f entry.2)) := by
  refine ext_get? (sorted_map g hs) (sorted_put _ _ (sorted_map f hs)) fun k => ?_
  rw [get?_put, get?_map, get?_map]
  by_cases hk : k = key
  · subst hk
    rw [if_pos rfl, (get?_eq_some_iff_mem hs).2 hvalue, Option.map_some]
  · rw [if_neg hk]
    cases hget : get? k table with
    | none => rfl
    | some v =>
        rw [Option.map_some, Option.map_some, hsame (k, v) (mem_of_get? hget) hk]

end Table

end PackageAtlas
