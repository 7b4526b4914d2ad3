import PackageAtlas.Namespace.Tree
import PackageAtlas.Proofs.RecordPath
import PackageAtlas.Proofs.Table

set_option autoImplicit false

/-! # The bindings of a tree

`Tree.bindings` lists the classes of a tree with the keys that lead to them. A tree is `Proper` if
its entries stand in the order of their keys and none of its packages is empty. The bindings of a
proper tree are in strict order and no two of them have comparable paths (`bindings_strict`), and
they determine the tree (`eq_of_bindings_eq`). -/

namespace PackageAtlas.Tree

/-- Induction over trees: a package comes after all of its entries. -/
theorem entry_induction {motive : Tree → Prop} (cls : ∀ record, motive (.cls record))
    (package : ∀ entries : List (Text × Tree), (∀ entry ∈ entries, motive entry.2) →
      motive (.package entries)) :
    ∀ tree, motive tree
  | .cls record => cls record
  | .package entries => package entries fun entry hentry =>
      have hlt : sizeOf entry.2 < sizeOf (Tree.package entries) := by
        have hle := List.sizeOf_lt_of_mem hentry
        have hsnd : sizeOf entry.2 < sizeOf entry := by
          cases entry
          simp only [Prod.mk.sizeOf_spec]
          omega
        simp only [Tree.package.sizeOf_spec]
        omega
      entry_induction cls package entry.2
termination_by tree => sizeOf tree
decreasing_by exact hlt

/-- The entries of a package; a class has none. -/
def entries : Tree → List (Text × Tree)
  | .package entries => entries
  | .cls _ => []

/-- A binding seen from the package one step above, where it lies under `key`. -/
def under (key : Text) (binding : List Text × Record) : List Text × Record :=
  (key :: binding.1, binding.2)

mutual

/-- The classes of a tree under their paths, in the order of the entries. -/
def bindings : Tree → List (List Text × Record)
  | .package entries => bindingsOfEntries entries
  | .cls record => [([], record)]

/-- The classes below a package under their paths. -/
def bindingsOfEntries : List (Text × Tree) → List (List Text × Record)
  | [] => []
  | (key, tree) :: rest => tree.bindings.map (under key) ++ bindingsOfEntries rest

end

/-! ## Bindings and entries -/

@[simp] theorem bindingsOfEntries_nil : bindingsOfEntries [] = [] := by
  rw [bindingsOfEntries]

@[simp] theorem bindingsOfEntries_cons (key : Text) (tree : Tree) (rest : List (Text × Tree)) :
    bindingsOfEntries ((key, tree) :: rest)
      = tree.bindings.map (under key) ++ bindingsOfEntries rest := by
  rw [bindingsOfEntries]

@[simp] theorem bindings_package (entries : List (Text × Tree)) :
    (Tree.package entries).bindings = bindingsOfEntries entries := by
  rw [bindings]

@[simp] theorem bindings_cls (record : Record) : (Tree.cls record).bindings = [([], record)] := by
  rw [bindings]

theorem mem_bindingsOfEntries (binding : List Text × Record) (entries : List (Text × Tree)) :
    binding ∈ bindingsOfEntries entries ↔
      ∃ entry ∈ entries, ∃ inner ∈ entry.2.bindings, binding = under entry.1 inner := by
  induction entries with
  | nil => simp
  | cons entry rest ih =>
      obtain ⟨key, tree⟩ := entry
      simp only [bindingsOfEntries_cons, List.mem_append, List.mem_map, ih, List.mem_cons,
        exists_eq_or_imp, eq_comm (a := binding)]

/-- Below a package every path has a first key. -/
theorem path_ne_nil_of_mem {binding : List Text × Record} {entries : List (Text × Tree)}
    (h : binding ∈ bindingsOfEntries entries) : binding.1 ≠ [] := by
  obtain ⟨entry, -, inner, -, rfl⟩ := (mem_bindingsOfEntries binding entries).1 h
  simp [under]

theorem leavesOfEntries_eq {entries : List (Text × Tree)}
    (h : ∀ entry ∈ entries, entry.2.leaves = entry.2.bindings.map Prod.snd) :
    leavesOfEntries entries = (bindingsOfEntries entries).map Prod.snd := by
  induction entries with
  | nil => rw [leavesOfEntries, bindingsOfEntries_nil, List.map_nil]
  | cons entry rest ih =>
      obtain ⟨key, tree⟩ := entry
      have hsnd : Prod.snd ∘ under key = Prod.snd := rfl
      rw [leavesOfEntries, h _ (List.mem_cons_self ..),
        ih fun e he => h e (List.mem_cons_of_mem _ he), bindingsOfEntries_cons, List.map_append,
        List.map_map, hsnd]

theorem leaves_eq (tree : Tree) : tree.leaves = tree.bindings.map Prod.snd := by
  induction tree using entry_induction with
  | cls record => rw [leaves, bindings_cls, List.map_singleton]
  | package entries ih => rw [leaves, bindings_package, leavesOfEntries_eq ih]

/-! ## Descending -/

/-- The tree at the end of a path. -/
def at? : List Text → Tree → Option Tree
  | [], tree => some tree
  | key :: rest, tree => (Table.get? key tree.entries).bind (at? rest)

/-- A binding of a tree at the end of a path is, under that path, one of the whole tree. -/
theorem mem_bindings_of_at? {path : List Text} {tree inner : Tree}
    (h : at? path tree = some inner) {binding : List Text × Record}
    (hmem : binding ∈ inner.bindings) : (path ++ binding.1, binding.2) ∈ tree.bindings := by
  induction path generalizing tree with
  | nil =>
      obtain rfl : tree = inner := Option.some.inj h
      exact hmem
  | cons key rest ih =>
      obtain ⟨next, hget, hat⟩ := Option.bind_eq_some_iff.1 h
      cases tree with
      | cls record => exact absurd hget (by simp [entries, Table.get?])
      | package es =>
          rw [bindings_package, mem_bindingsOfEntries]
          exact ⟨(key, next), Table.mem_of_get? hget, _, ih hat, rfl⟩

/-! ## Proper trees -/

mutual

/-- Entries in the order of their keys, and no package empty, all the way down. -/
def Proper : Tree → Prop
  | .cls _ => True
  | .package entries => entries ≠ [] ∧ ProperEntries entries

/-- Entries in the order of their keys, each of them proper. -/
def ProperEntries : List (Text × Tree) → Prop
  | [] => True
  | (key, tree) :: rest =>
    (∀ entry ∈ rest, key < entry.1) ∧ tree.Proper ∧ ProperEntries rest

end

theorem properEntries_iff (entries : List (Text × Tree)) :
    ProperEntries entries ↔ Table.Sorted entries ∧ ∀ entry ∈ entries, entry.2.Proper := by
  induction entries with
  | nil => simp [ProperEntries, Table.Sorted]
  | cons entry rest ih =>
      obtain ⟨key, tree⟩ := entry
      rw [ProperEntries, ih, Table.Sorted, Table.Sorted, List.pairwise_cons]
      simp only [List.mem_cons, forall_eq_or_imp]
      tauto

theorem proper_package (entries : List (Text × Tree)) :
    (Tree.package entries).Proper ↔ entries ≠ [] ∧ ProperEntries entries := by
  rw [Proper]

theorem proper_cls (record : Record) : (Tree.cls record).Proper := by
  rw [Proper]
  trivial

theorem ProperEntries.sorted {entries : List (Text × Tree)} (h : ProperEntries entries) :
    Table.Sorted entries :=
  ((properEntries_iff entries).1 h).1

theorem ProperEntries.proper {entries : List (Text × Tree)} (h : ProperEntries entries)
    {entry : Text × Tree} (hmem : entry ∈ entries) : entry.2.Proper :=
  ((properEntries_iff entries).1 h).2 entry hmem

theorem bindings_ne_nil {tree : Tree} (h : tree.Proper) : tree.bindings ≠ [] := by
  induction tree using entry_induction with
  | cls record => simp
  | package entries ih =>
      obtain ⟨hne, hproper⟩ := (proper_package entries).1 h
      obtain ⟨⟨key, tree⟩, rest, rfl⟩ := List.exists_cons_of_ne_nil hne
      have hfirst := ih _ (List.mem_cons_self ..) (hproper.proper (List.mem_cons_self ..))
      simp [hfirst]

theorem properEntries_entries {tree : Tree} (h : tree.Proper) : ProperEntries tree.entries := by
  cases tree with
  | cls record => exact (properEntries_iff _).2 ⟨List.Pairwise.nil, by simp [entries]⟩
  | package es => exact ((proper_package es).1 h).2

/-- Only at the root can a tree of proper entries be an empty package. -/
theorem proper_of_at? {key : Text} {rest : List Text} :
    ∀ {tree inner : Tree}, ProperEntries tree.entries → at? (key :: rest) tree = some inner →
      inner.Proper := by
  induction rest generalizing key with
  | nil =>
      intro tree inner h hat
      obtain ⟨next, hget, hnext⟩ := Option.bind_eq_some_iff.1 hat
      obtain rfl : next = inner := Option.some.inj hnext
      exact h.proper (Table.mem_of_get? hget)
  | cons key' rest ih =>
      intro tree inner h hat
      -- one step down the whole tree is proper, not its entries only
      obtain ⟨next, hget, hnext⟩ := Option.bind_eq_some_iff.1 hat
      exact ih (properEntries_entries (h.proper (Table.mem_of_get? hget))) hnext

/-! ## The order of the bindings -/

/-- The path of `a` is less than that of `b` and no beginning of it. -/
def Before (a b : List Text × Record) : Prop :=
  a.1 < b.1 ∧ ¬ Comparable a.1 b.1

theorem before_under (key : Text) {a b : List Text × Record} (h : Before a b) :
    Before (under key a) (under key b) :=
  ⟨List.cons_lt_cons_iff.2 (Or.inr ⟨rfl, h.1⟩),
    fun hc => h.2 ((comparable_cons_cons ..).1 hc).2⟩

theorem before_of_key_lt {key key' : Text} (h : key < key') (a b : List Text × Record) :
    Before (under key a) (under key' b) :=
  ⟨List.cons_lt_cons_iff.2 (Or.inl h), fun hc =>
    List.lt_irrefl key' (((comparable_cons_cons ..).1 hc).1 ▸ h)⟩

theorem bindingsOfEntries_pairwise {entries : List (Text × Tree)} (hs : Table.Sorted entries)
    (h : ∀ entry ∈ entries, entry.2.bindings.Pairwise Before) :
    (bindingsOfEntries entries).Pairwise Before := by
  induction entries with
  | nil => simp
  | cons entry rest ih =>
      obtain ⟨key, tree⟩ := entry
      obtain ⟨hhead, hrest⟩ := List.pairwise_cons.1 hs
      rw [bindingsOfEntries_cons, List.pairwise_append]
      refine ⟨?_, ih hrest fun e he => h e (List.mem_cons_of_mem _ he), ?_⟩
      · exact (h _ (List.mem_cons_self ..)).map _ fun _ _ hab => before_under key hab
      · intro a ha b hb
        obtain ⟨a', -, rfl⟩ := List.mem_map.1 ha
        obtain ⟨entry, hentry, b', -, rfl⟩ := (mem_bindingsOfEntries b rest).1 hb
        exact before_of_key_lt (hhead entry hentry) a' b'

/-- **The paths of a proper tree are in strict order and no two of them are comparable.** -/
theorem bindings_strict {tree : Tree} (h : tree.Proper) : tree.bindings.Pairwise Before := by
  induction tree using entry_induction with
  | cls record => simp
  | package entries ih =>
      obtain ⟨-, hproper⟩ := (proper_package entries).1 h
      rw [bindings_package]
      exact bindingsOfEntries_pairwise hproper.sorted fun e he => ih e he (hproper.proper he)

theorem ProperEntries.strict {entries : List (Text × Tree)} (h : ProperEntries entries) :
    (bindingsOfEntries entries).Pairwise Before :=
  bindingsOfEntries_pairwise h.sorted fun _ he => bindings_strict (h.proper he)

/-! ## The bindings under one key -/

theorem under_injective (key : Text) : Function.Injective (under key) := by
  rintro ⟨p, r⟩ ⟨q, s⟩ h
  simpa [under] using h

/-- The bindings whose first key is `key` are those of the entry under it. -/
theorem filter_head?_bindingsOfEntries (key : Text) {entries : List (Text × Tree)}
    (hs : Table.Sorted entries) :
    (bindingsOfEntries entries).filter (fun b => b.1.head? = some key)
      = ((Table.get? key entries).map fun tree => tree.bindings.map (under key)).getD [] := by
  induction entries with
  | nil => rfl
  | cons entry rest ih =>
      obtain ⟨k, tree⟩ := entry
      obtain ⟨hhead, hrest⟩ := List.pairwise_cons.1 hs
      rw [bindingsOfEntries_cons, List.filter_append, ih hrest, Table.get?, List.filter_map]
      by_cases hk : key = k
      · subst hk
        have hnone : Table.get? key rest = none := Table.get?_eq_none_of_forall_ne fun e he heq =>
          List.lt_irrefl key (heq ▸ hhead e he)
        rw [if_pos rfl, hnone]
        simp [under, Function.comp_def]
      · rw [if_neg hk]
        have hk' : ¬ k = key := fun he => hk he.symm
        simp [under, Function.comp_def, hk']

/-! ## Trees with the same bindings -/

theorem head_key_eq {key key' : Text} {tree tree' : Tree} {rest rest' : List (Text × Tree)}
    (ht : tree.Proper) (ht' : tree'.Proper)
    (h : bindingsOfEntries ((key, tree) :: rest) = bindingsOfEntries ((key', tree') :: rest')) :
    key = key' := by
  obtain ⟨b, bs, hb⟩ := List.exists_cons_of_ne_nil (bindings_ne_nil ht)
  obtain ⟨b', bs', hb'⟩ := List.exists_cons_of_ne_nil (bindings_ne_nil ht')
  rw [bindingsOfEntries_cons, bindingsOfEntries_cons, hb, hb'] at h
  have hfirst : under key b = under key' b' := (List.cons.inj h).1
  have hpath : key :: b.1 = key' :: b'.1 := congrArg Prod.fst hfirst
  exact (List.cons.inj hpath).1

theorem entries_eq_of_bindings_eq {es : List (Text × Tree)} :
    ∀ {fs : List (Text × Tree)}, ProperEntries es → ProperEntries fs →
      (∀ e ∈ es, ∀ other : Tree, other.Proper → e.2.bindings = other.bindings → e.2 = other) →
      bindingsOfEntries es = bindingsOfEntries fs → es = fs := by
  induction es with
  | nil =>
      intro fs _ hf _ h
      cases fs with
      | nil => rfl
      | cons f rest =>
          obtain ⟨key, tree⟩ := f
          have hne := bindings_ne_nil (hf.proper (List.mem_cons_self ..))
          simp [hne] at h
  | cons e rest ih =>
      intro fs he hf hmem h
      obtain ⟨key, tree⟩ := e
      have htree := he.proper (List.mem_cons_self ..)
      cases fs with
      | nil =>
          have hne := bindings_ne_nil htree
          simp [hne] at h
      | cons f rest' =>
          obtain ⟨key', tree'⟩ := f
          have htree' := hf.proper (List.mem_cons_self ..)
          obtain rfl : key = key' := head_key_eq htree htree' h
          -- where the bindings of the first entry end is not marked, but their first key tells
          have hunder : tree.bindings.map (under key) = tree'.bindings.map (under key) := by
            have hfilter := congrArg (List.filter fun b => b.1.head? = some key) h
            rw [filter_head?_bindingsOfEntries key he.sorted,
              filter_head?_bindingsOfEntries key hf.sorted, Table.get?, if_pos rfl, Table.get?,
              if_pos rfl] at hfilter
            exact hfilter
          have hbindings := List.map_injective_iff.2 (under_injective key) hunder
          obtain rfl : tree = tree' := hmem _ (List.mem_cons_self ..) tree' htree' hbindings
          rw [bindingsOfEntries_cons, bindingsOfEntries_cons, List.append_cancel_left_eq] at h
          rw [ProperEntries] at he hf
          rw [ih he.2.2 hf.2.2 (fun e hin => hmem e (List.mem_cons_of_mem _ hin)) h]

/-- **A proper tree is determined by its bindings.** -/
theorem eq_of_bindings_eq {tree other : Tree} (ht : tree.Proper) (ho : other.Proper)
    (h : tree.bindings = other.bindings) : tree = other := by
  induction tree using entry_induction generalizing other with
  | cls record =>
      cases other with
      | cls record' => simpa using h
      | package entries =>
          rw [bindings_cls, bindings_package] at h
          exact absurd rfl (path_ne_nil_of_mem (h ▸ List.mem_singleton_self _))
  | package entries ih =>
      obtain ⟨-, hproper⟩ := (proper_package entries).1 ht
      cases other with
      | cls record' =>
          rw [bindings_cls, bindings_package] at h
          exact absurd rfl (path_ne_nil_of_mem (h.symm ▸ List.mem_singleton_self _))
      | package entries' =>
          obtain ⟨-, hproper'⟩ := (proper_package entries').1 ho
          rw [bindings_package, bindings_package] at h
          rw [entries_eq_of_bindings_eq hproper hproper'
            (fun e he other ho hb => ih e he (hproper.proper he) ho hb) h]

theorem ProperEntries.eq_of_bindings_eq {es fs : List (Text × Tree)} (he : ProperEntries es)
    (hf : ProperEntries fs) (h : bindingsOfEntries es = bindingsOfEntries fs) : es = fs :=
  entries_eq_of_bindings_eq he hf
    (fun _ hin _ ho hb => Tree.eq_of_bindings_eq (he.proper hin) ho hb) h

end PackageAtlas.Tree
