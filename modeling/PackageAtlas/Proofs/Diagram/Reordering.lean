import PackageAtlas.Proofs.Dependencies
import PackageAtlas.Proofs.Diagram.Shape
import PackageAtlas.Proofs.Namespace.Survivors

set_option autoImplicit false

/-! # When the order of the records shows

The diagram of a list of records can depend on their order only through conflicts: a class whose
path runs through the package of another one. Without conflicts the paths of the tree are those of
all records, so every order gives the same lines. With a conflict the later one of two records
decides whether there is a class or a package, and a package takes more lines. -/

namespace PackageAtlas

open PackageAtlas.Namespace PackageAtlas.Tree

namespace Namespace

/-! ## Without conflicts -/

/-- If records displace only others with the same path, then one with each path survives. -/
theorem exists_survivor {records : List Record} (h : ∀ a ∈ records, ∀ b ∈ records,
    Comparable a.path b.path → a.path = b.path) :
    ∀ record ∈ records, ∃ survivor ∈ survivors records, survivor.path = record.path := by
  induction records with
  | nil => exact fun _ hmem => absurd hmem List.not_mem_nil
  | cons first rest ih =>
      have hrest : ∀ record ∈ rest, ∃ survivor ∈ survivors rest, survivor.path = record.path :=
        ih fun a ha b hb => h a (List.mem_cons_of_mem _ ha) b (List.mem_cons_of_mem _ hb)
      intro record hmem
      rw [survivors]
      split
      · next hlater =>
          rcases List.mem_cons.1 hmem with rfl | hmem
          · obtain ⟨later, hlmem, hcomp⟩ := hlater
            rw [h record (List.mem_cons_self ..) later (List.mem_cons_of_mem _ hlmem) hcomp]
            exact hrest later hlmem
          · exact hrest record hmem
      · rcases List.mem_cons.1 hmem with rfl | hmem
        · exact ⟨record, List.mem_cons_self .., rfl⟩
        · obtain ⟨survivor, hs, hpath⟩ := hrest record hmem
          exact ⟨survivor, List.mem_cons_of_mem _ hs, hpath⟩

/-- The paths of the classes are those of the records. -/
theorem mem_paths_ofRecords {records : List Record} (h : ∀ a ∈ records, ∀ b ∈ records,
    ¬ a.path <+: b.segments) (path : List Text) :
    path ∈ (ofRecords records).tree.bindings.map Prod.fst ↔ path ∈ records.map Record.path := by
  have hsame : ∀ a ∈ records, ∀ b ∈ records, Comparable a.path b.path → a.path = b.path := by
    rintro a ha b hb (hab | hba)
    · exact Decidable.by_contra fun hne => h a ha b hb
        ((Record.path_prefix_segments_iff a b).2 ⟨hab, hne⟩)
    · exact Decidable.by_contra fun hne => h b hb a ha
        ((Record.path_prefix_segments_iff b a).2 ⟨hba, Ne.symm hne⟩)
  simp only [List.mem_map, mem_bindings_ofRecords]
  constructor
  · rintro ⟨_, ⟨survivor, hs, rfl⟩, rfl⟩
    obtain ⟨before, after, heq, -⟩ := (mem_survivors survivor records).1 hs
    exact ⟨survivor, by simp [heq], rfl⟩
  · rintro ⟨record, hmem, rfl⟩
    obtain ⟨survivor, hs, hpath⟩ := exists_survivor hsame record hmem
    exact ⟨_, ⟨survivor, hs, rfl⟩, hpath⟩

/-- The paths of a valid namespace come in order. -/
theorem Valid.paths_strict {ns : Namespace} (h : Valid ns) :
    (ns.tree.bindings.map Prod.fst).Pairwise (· < ·) := by
  rw [List.pairwise_map, bindings_tree h.sound]
  exact h.proper.strict.imp And.left

end Namespace

namespace Diagram

/-- The lines of trees with the same paths. -/
theorem treeLines_eq_of_paths_eq {ns ns' : Namespace} (h : Valid ns) (h' : Valid ns')
    (hpaths : ns.tree.bindings.map Prod.fst = ns'.tree.bindings.map Prod.fst) (indent : Nat) :
    treeLines indent ns.tree = treeLines indent ns'.tree := by
  have hlocated := h.located
  have hlocated' := h'.located
  rw [bindings_tree h.sound] at hlocated hpaths
  rw [bindings_tree h'.sound] at hlocated' hpaths
  rw [tree_eq_package h.sound, tree_eq_package h'.sound, treeLines, treeLines]
  exact entriesLines_eq_of_paths_eq h.proper h'.proper hlocated hlocated' hpaths indent 0 []

theorem treeLines_perm {shuffled records : List Record} (hperm : shuffled.Perm records)
    (h : ∀ a ∈ records, ∀ b ∈ records, ¬ a.path <+: b.segments) (indent : Nat) :
    treeLines indent (ofRecords shuffled).tree = treeLines indent (ofRecords records).tree := by
  have hshuffled : ∀ a ∈ shuffled, ∀ b ∈ shuffled, ¬ a.path <+: b.segments := fun a ha b hb =>
    h a (hperm.mem_iff.1 ha) b (hperm.mem_iff.1 hb)
  have hvalid := valid_ofRecords shuffled
  have hvalid' := valid_ofRecords records
  -- of two records with one path the later one stays, so the trees themselves can differ
  refine treeLines_eq_of_paths_eq hvalid hvalid' ?_ indent
  refine hvalid.paths_strict.eq_of_mem_iff hvalid'.paths_strict fun path => ?_
  rw [mem_paths_ofRecords hshuffled, mem_paths_ofRecords h]
  exact (hperm.map Record.path).mem_iff

/-! ## With a conflict -/

theorem tree_ofRecords_concat (records : List Record) (record : Record) :
    (ofRecords (records ++ [record])).tree = .package
      (graft record.segments record.className (.cls record) (ofRecords records).tree.entries) := by
  rw [ofRecords_append]
  exact tree_insert (valid_ofRecords records).sound record

/-- A class on the way of another gives fewer lines if it comes after the other. -/
theorem length_treeLines_lt {a b : Record} (h : a.path <+: b.segments) (records : List Record)
    (indent : Nat) :
    (treeLines indent (ofRecords (records ++ [b, a])).tree).length
      < (treeLines indent (ofRecords (records ++ [a, b])).tree).length := by
  have htree : ∀ x y : Record, (ofRecords (records ++ [x, y])).tree = .package
      (graft y.segments y.className (.cls y)
        (graft x.segments x.className (.cls x) (ofRecords records).tree.entries)) := fun x y => by
    rw [List.append_cons, tree_ofRecords_concat, tree_ofRecords_concat, Tree.entries]
  obtain ⟨more, hmore⟩ := h
  have hsegments : b.segments = a.segments ++ a.className :: more := by
    rw [← hmore, Record.path, List.append_assoc, List.singleton_append]
  rw [htree, htree, hsegments, graft_graft_extension, graft_extension_graft, treeLines, treeLines]
  -- a class is one line, a package takes three at least
  exact length_entriesLines_graft_lt _ (fun depth path => by simp [entryLines]) 0 [] _

theorem exists_perm_concat {a b : Record} {records : List Record} (ha : a ∈ records)
    (hb : b ∈ records) (hne : b ≠ a) :
    ∃ others : List Record, (others ++ [a, b]).Perm records ∧ (others ++ [b, a]).Perm records := by
  have hb' : b ∈ records.erase a := (List.mem_erase_of_ne hne).2 hb
  have hperm : records.Perm (a :: b :: (records.erase a).erase b) :=
    (List.perm_cons_erase ha).trans ((List.perm_cons_erase hb').cons a)
  refine ⟨(records.erase a).erase b, ?_, ?_⟩
  · exact List.perm_append_comm.trans hperm.symm
  · exact List.perm_append_comm.trans ((List.Perm.swap a b _).trans hperm.symm)

/-! ## The exact condition -/

theorem body_eq (layout : Layout) (ns : Namespace) (dependencies : Dependencies) :
    body layout ns (some dependencies)
      = treeLines layout.indent ns.tree ++ edgeLines dependencies := rfl

/-- **A diagram is the same for every order of the records if and only if no class is on the way of
another.** The dependencies themselves are the same in any case. -/
theorem body_perm_iff (layout : Layout) (ignored : List Text) (records : List Record) :
    ((∀ shuffled : List Record, shuffled.Perm records →
        body layout (ofRecords shuffled) (some (Dependencies.ofRecords ignored shuffled))
          = body layout (ofRecords records) (some (Dependencies.ofRecords ignored records))) ↔
      ∀ a ∈ records, ∀ b ∈ records, ¬ a.path <+: b.segments) ∧
    ∀ shuffled : List Record, shuffled.Perm records →
      Dependencies.ofRecords ignored shuffled = Dependencies.ofRecords ignored records := by
  have hdeps : ∀ shuffled : List Record, shuffled.Perm records →
      Dependencies.ofRecords ignored shuffled = Dependencies.ofRecords ignored records :=
    fun _ hperm => Dependencies.ofRecords_perm ignored hperm
  refine ⟨⟨fun hsame a ha b hb hstart => ?_, fun hfree shuffled hperm => ?_⟩, hdeps⟩
  · have hne : b ≠ a := by
      rintro rfl
      exact ((Record.path_prefix_segments_iff b b).1 hstart).2 rfl
    obtain ⟨others, hab, hba⟩ := exists_perm_concat ha hb hne
    have hbody := (hsame _ hba).trans (hsame _ hab).symm
    rw [body_eq, body_eq, hdeps _ hab, hdeps _ hba] at hbody
    have hlines := List.append_cancel_right hbody
    exact (length_treeLines_lt hstart others layout.indent).ne (congrArg List.length hlines)
  · rw [body_eq, body_eq, hdeps shuffled hperm, treeLines_perm hperm hfree]

end Diagram

end PackageAtlas
