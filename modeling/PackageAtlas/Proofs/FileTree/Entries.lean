import Mathlib.Data.List.Induction
import PackageAtlas.FileTree
import PackageAtlas.Proofs.Table
import PackageAtlas.Text.Utf8

set_option autoImplicit false

/-! # Entries and their locations

`Entry.Sound` says of an entry what holds of every file tree: the names in each folder are in order,
and can be names. `Entry.files` lists the regular files in an entry by their locations, folder by
folder; it has every location at which there is a file (`mem_files`), in the order of the names on
the way (`files_sorted`). -/

namespace PackageAtlas

/-- Byte strings are ordered byte by byte. -/
instance : IsStrictTotalOrder Bytes (· < ·) where

/-- A name that an entry of a folder can have. -/
structure LegalName (name : Bytes) : Prop where
  ne_nil : name ≠ []
  ne_dot : name ≠ Path.dot
  ne_dotDot : name ≠ Path.dotDot
  slash_not_mem : Path.slash ∉ name
  zero_not_mem : 0 ∉ name
  length_le : name.length ≤ FileTree.nameLimit

instance (name : Bytes) : Decidable (LegalName name) :=
  decidable_of_iff (name ≠ [] ∧ name ≠ Path.dot ∧ name ≠ Path.dotDot ∧ Path.slash ∉ name ∧
      0 ∉ name ∧ name.length ≤ FileTree.nameLimit)
    ⟨fun ⟨h₁, h₂, h₃, h₄, h₅, h₆⟩ => ⟨h₁, h₂, h₃, h₄, h₅, h₆⟩,
      fun ⟨h₁, h₂, h₃, h₄, h₅, h₆⟩ => ⟨h₁, h₂, h₃, h₄, h₅, h₆⟩⟩

namespace Entry

/-- Induction over entries: a folder comes after all that is in it. -/
theorem entry_induction {motive : Entry → Prop} (file : ∀ content, motive (.file content))
    (link : ∀ target, motive (.link target))
    (folder : ∀ entries : List (Bytes × Entry), (∀ e ∈ entries, motive e.2) →
      motive (.folder entries)) :
    ∀ entry, motive entry
  | .file content => file content
  | .link target => link target
  | .folder entries => folder entries fun e he =>
      have hlt : sizeOf e.2 < sizeOf (Entry.folder entries) := by
        have hle := List.sizeOf_lt_of_mem he
        have hsnd : sizeOf e.2 < sizeOf e := by
          cases e
          simp only [Prod.mk.sizeOf_spec]
          omega
        simp only [Entry.folder.sizeOf_spec]
        omega
      entry_induction file link folder e.2
termination_by entry => sizeOf entry
decreasing_by exact hlt

/-! ## Locations -/

@[simp] theorem at?_nil (entry : Entry) : entry.at? [] = some entry := by
  cases entry <;> rfl

@[simp] theorem at?_folder_cons (entries : List (Bytes × Entry)) (name : Bytes) (rest : Location) :
    (folder entries).at? (name :: rest)
      = (Table.get? name entries).bind fun entry => entry.at? rest :=
  rfl

/-- Only in a folder is there anything below an entry. -/
theorem exists_of_at?_cons {entry inner : Entry} {name : Bytes} {rest : Location}
    (h : entry.at? (name :: rest) = some inner) :
    ∃ entries next, entry = folder entries ∧ Table.get? name entries = some next ∧
      next.at? rest = some inner := by
  cases entry with
  | file content => exact absurd h (by simp [Entry.at?])
  | link target => exact absurd h (by simp [Entry.at?])
  | folder entries =>
      obtain ⟨next, hget, hrest⟩ := Option.bind_eq_some_iff.1 h
      exact ⟨entries, next, rfl, hget, hrest⟩

/-- A folder is in no entry but a folder. -/
theorem exists_of_at?_folder {entry : Entry} {location : Location} {inner : List (Bytes × Entry)}
    (h : entry.at? location = some (folder inner)) : ∃ entries, entry = folder entries := by
  cases location with
  | nil => exact ⟨inner, Option.some.inj ((at?_nil entry).symm.trans h)⟩
  | cons name rest =>
      obtain ⟨entries, -, rfl, -⟩ := exists_of_at?_cons h
      exact ⟨entries, rfl⟩

theorem at?_append (front rest : Location) : ∀ entry : Entry,
    entry.at? (front ++ rest) = (entry.at? front).bind fun inner => inner.at? rest := by
  induction front with
  | nil =>
      intro entry
      rw [List.nil_append, at?_nil, Option.bind_some]
  | cons name front ih =>
      intro entry
      cases entry with
      | file content => rfl
      | link target => rfl
      | folder entries =>
          rw [List.cons_append, at?_folder_cons, at?_folder_cons, Option.bind_assoc]
          exact congrArg _ (funext ih)

/-! ## Sound entries -/

/-- In every folder the names are in order, and can be names. -/
structure Sound (entry : Entry) : Prop where
  sorted : ∀ {location entries}, entry.at? location = some (.folder entries) →
    Table.Sorted entries
  legal : ∀ {location entries}, entry.at? location = some (.folder entries) →
    ∀ e ∈ entries, LegalName e.1

theorem Sound.at? {entry inner : Entry} (h : entry.Sound) {location : Location}
    (hat : entry.at? location = some inner) : inner.Sound where
  sorted := fun hinner => h.sorted (by rw [at?_append, hat, Option.bind_some, hinner])
  legal := fun hinner => h.legal (by rw [at?_append, hat, Option.bind_some, hinner])

theorem Sound.sorted_entries {entries : List (Bytes × Entry)} (h : (folder entries).Sound) :
    Table.Sorted entries :=
  h.sorted (at?_nil _)

theorem Sound.get?_iff {entries : List (Bytes × Entry)} (h : (folder entries).Sound)
    {name : Bytes} {entry : Entry} :
    Table.get? name entries = some entry ↔ (name, entry) ∈ entries :=
  Table.get?_eq_some_iff_mem h.sorted_entries

theorem Sound.of_mem {entries : List (Bytes × Entry)} (h : (folder entries).Sound)
    {e : Bytes × Entry} (hmem : e ∈ entries) : e.2.Sound := by
  have hat : (folder entries).at? [e.1] = some e.2 := by
    rw [at?_folder_cons, h.get?_iff.2 hmem, Option.bind_some, at?_nil]
  exact h.at? hat

/-! ## Names that are texts -/

/-- Every name in every folder is the UTF-8 of a text. -/
def InText (entry : Entry) : Prop :=
  ∀ location entries, entry.at? location = some (.folder entries) →
    ∀ e ∈ entries, ∃ name : Text, e.1 = Utf8.encode name

theorem InText.exists_path {entry : Entry} (h : entry.InText) {location : Location} {inner : Entry}
    (hat : entry.at? location = some inner) :
    ∃ path : List Text, location = path.map Utf8.encode := by
  induction location using List.reverseRecOn generalizing inner with
  | nil => exact ⟨[], rfl⟩
  | append_singleton front name ih =>
      rw [at?_append] at hat
      obtain ⟨between, hfront, hname⟩ := Option.bind_eq_some_iff.1 hat
      obtain ⟨entries, next, rfl, hget, -⟩ := exists_of_at?_cons hname
      obtain ⟨path, rfl⟩ := ih hfront
      obtain ⟨last, hlast⟩ := h _ entries hfront _ (Table.mem_of_get? hget)
      exact ⟨path ++ [last], by simp [← hlast]⟩

/-! ## Checking all folders -/

mutual

/-- Whether every folder in an entry passes a check of its entries. -/
def allFolders (check : List (Bytes × Entry) → Bool) : Entry → Bool
  | file _ => true
  | link _ => true
  | folder entries => check entries && allFoldersIn check entries

/-- Whether every folder in the entries of a folder passes a check. -/
def allFoldersIn (check : List (Bytes × Entry) → Bool) : List (Bytes × Entry) → Bool
  | [] => true
  | (_, entry) :: rest => entry.allFolders check && allFoldersIn check rest

end

theorem allFolders_of_mem {check : List (Bytes × Entry) → Bool} {entries : List (Bytes × Entry)}
    (h : allFoldersIn check entries = true) : ∀ e ∈ entries, e.2.allFolders check = true := by
  induction entries with
  | nil => simp
  | cons first rest ih =>
      obtain ⟨name, entry⟩ := first
      obtain ⟨hentry, hrest⟩ := Bool.and_eq_true_iff.1 h
      exact List.forall_mem_cons.2 ⟨hentry, ih hrest⟩

theorem check_of_allFolders {check : List (Bytes × Entry) → Bool} (location : Location) :
    ∀ {entry : Entry} {inner : List (Bytes × Entry)}, entry.allFolders check = true →
      entry.at? location = some (.folder inner) → check inner = true := by
  induction location with
  | nil =>
      intro entry inner h hat
      obtain rfl := Option.some.inj ((at?_nil entry).symm.trans hat)
      exact (Bool.and_eq_true_iff.1 h).1
  | cons name rest ih =>
      intro entry inner h hat
      obtain ⟨entries, next, rfl, hget, hrest⟩ := exists_of_at?_cons hat
      exact ih (allFolders_of_mem (Bool.and_eq_true_iff.1 h).2 _ (Table.mem_of_get? hget)) hrest

/-- An entry is sound if each of its folders is. -/
theorem Sound.of_allFolders {entry : Entry} (h : entry.allFolders (fun entries =>
      decide (Table.Sorted entries) && entries.all (decide <| LegalName ·.1)) = true) :
    entry.Sound where
  sorted := fun hat =>
    of_decide_eq_true (Bool.and_eq_true_iff.1 (check_of_allFolders _ h hat)).1
  legal := fun hat e he => of_decide_eq_true
    (List.all_eq_true.1 (Bool.and_eq_true_iff.1 (check_of_allFolders _ h hat)).2 e he)

theorem InText.of_allFolders {entry : Entry} (h : entry.allFolders (fun entries =>
      entries.all (Utf8.decode? ·.1 |>.isSome)) = true) : entry.InText := by
  intro location entries hat e he
  have hsome := List.all_eq_true.1 (check_of_allFolders _ h hat) e he
  obtain ⟨name, hname⟩ := Option.isSome_iff_exists.1 hsome
  rw [Utf8.decode?] at hname
  split_ifs at hname with hback
  exact ⟨_, hback.symm⟩

/-! ## Regular files -/

mutual

/-- The locations of the regular files in an entry, in the order of the entries. -/
def files : Entry → List Location
  | file _ => [[]]
  | link _ => []
  | folder entries => filesIn entries

/-- The locations of the regular files in the entries of a folder. -/
def filesIn : List (Bytes × Entry) → List Location
  | [] => []
  | (name, entry) :: rest => entry.files.map (name :: ·) ++ filesIn rest

end

theorem mem_filesIn (location : Location) (entries : List (Bytes × Entry)) :
    location ∈ filesIn entries ↔
      ∃ e ∈ entries, ∃ inner ∈ e.2.files, location = e.1 :: inner := by
  induction entries with
  | nil => simp [filesIn]
  | cons first rest ih =>
      obtain ⟨name, entry⟩ := first
      simp only [filesIn, List.mem_append, List.mem_map, ih, List.mem_cons, exists_eq_or_imp,
        eq_comm (a := location)]

/-- **The files listed are the files that are there.** -/
theorem mem_files (location : Location) {entry : Entry} (h : entry.Sound) :
    location ∈ entry.files ↔ ∃ content, entry.at? location = some (.file content) := by
  induction entry using entry_induction generalizing location with
  | file content => cases location <;> simp [files, Entry.at?]
  | link target => cases location <;> simp [files, Entry.at?]
  | folder entries ih =>
      rw [files, mem_filesIn]
      cases location with
      | nil => simp
      | cons name rest =>
          constructor
          · rintro ⟨e, he, inner, hinner, heq⟩
            obtain ⟨rfl, rfl⟩ := List.cons.inj heq
            rw [at?_folder_cons, h.get?_iff.2 he, Option.bind_some]
            exact (ih e he rest (h.of_mem he)).1 hinner
          · rintro ⟨content, hat⟩
            obtain ⟨entry, hget, hrest⟩ := Option.bind_eq_some_iff.1 hat
            have he := h.get?_iff.1 hget
            exact ⟨(name, entry), he, rest, (ih _ he rest (h.of_mem he)).2 ⟨content, hrest⟩, rfl⟩

theorem filesIn_sorted {entries : List (Bytes × Entry)} (hs : Table.Sorted entries)
    (h : ∀ e ∈ entries, e.2.files.Pairwise (· < ·)) : (filesIn entries).Pairwise (· < ·) := by
  induction entries with
  | nil => exact List.Pairwise.nil
  | cons first rest ih =>
      obtain ⟨name, entry⟩ := first
      obtain ⟨hhead, hrest⟩ := List.pairwise_cons.1 hs
      rw [filesIn, List.pairwise_append]
      refine ⟨?_, ih hrest fun e he => h e (List.mem_cons_of_mem _ he), ?_⟩
      · exact (h _ (List.mem_cons_self ..)).map _ fun _ _ hab =>
          List.cons_lt_cons_iff.2 (Or.inr ⟨rfl, hab⟩)
      · intro a ha b hb
        obtain ⟨a', -, rfl⟩ := List.mem_map.1 ha
        obtain ⟨e, he, b', -, rfl⟩ := (mem_filesIn b rest).1 hb
        exact List.cons_lt_cons_iff.2 (Or.inl (hhead e he))

/-- **The files come in the order of the names on the way to them.** -/
theorem files_sorted {entry : Entry} (h : entry.Sound) : entry.files.Pairwise (· < ·) := by
  induction entry using entry_induction with
  | file content => exact List.pairwise_singleton _ _
  | link target => exact List.Pairwise.nil
  | folder entries ih =>
      rw [files]
      exact filesIn_sorted h.sorted_entries fun e he => ih e he (h.of_mem he)

end Entry

end PackageAtlas
