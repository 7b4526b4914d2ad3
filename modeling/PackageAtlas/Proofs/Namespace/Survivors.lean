import PackageAtlas.Proofs.Namespace.Reachable
import PackageAtlas.Proofs.Utf8Order

set_option autoImplicit false

/-! # Which records survive

A record that is inserted displaces all classes with comparable paths, so of a run of insertions
those records are left that no later record of the run displaced. `leaves_ofRecords` says that the
classes of a namespace are these `survivors`, in the byte order of their paths. -/

namespace PackageAtlas

/-- The records with no later one whose path is comparable, in their order. -/
def survivors : List Record → List Record
  | [] => []
  | record :: rest =>
    if ∃ later ∈ rest, Comparable record.path later.path then survivors rest
    else record :: survivors rest

/-- A record survives at a place in the list if all records after it leave it alone. -/
theorem mem_survivors (record : Record) (records : List Record) :
    record ∈ survivors records ↔ ∃ before after, records = before ++ record :: after ∧
      ∀ later ∈ after, ¬ Comparable record.path later.path := by
  induction records with
  | nil => simp [survivors]
  | cons first rest ih =>
      have hrest : (∃ before after, rest = before ++ record :: after ∧
          ∀ later ∈ after, ¬ Comparable record.path later.path) →
          ∃ before after, first :: rest = before ++ record :: after ∧
            ∀ later ∈ after, ¬ Comparable record.path later.path := by
        rintro ⟨before, after, rfl, hafter⟩
        exact ⟨first :: before, after, rfl, hafter⟩
      rw [survivors]
      split
      · next hlater =>
          refine ⟨fun hmem => hrest (ih.1 hmem), ?_⟩
          rintro ⟨before, after, heq, hafter⟩
          cases before with
          | nil =>
              obtain ⟨rfl, rfl⟩ := List.cons.inj heq
              obtain ⟨later, hmem, hcomp⟩ := hlater
              exact absurd hcomp (hafter later hmem)
          | cons b before => exact ih.2 ⟨before, after, (List.cons.inj heq).2, hafter⟩
      · next hlater =>
          rw [List.mem_cons]
          constructor
          · rintro (rfl | hmem)
            · exact ⟨[], rest, rfl, fun later hmem hcomp => hlater ⟨later, hmem, hcomp⟩⟩
            · exact hrest (ih.1 hmem)
          · rintro ⟨before, after, heq, hafter⟩
            cases before with
            | nil => exact Or.inl (List.cons.inj heq).1.symm
            | cons b before => exact Or.inr (ih.2 ⟨before, after, (List.cons.inj heq).2, hafter⟩)

theorem mem_of_mem_survivors {record : Record} {records : List Record}
    (h : record ∈ survivors records) : record ∈ records := by
  obtain ⟨before, after, rfl, -⟩ := (mem_survivors record records).1 h
  simp

theorem survivors_nodup (records : List Record) : (survivors records).Nodup := by
  induction records with
  | nil => exact List.nodup_nil
  | cons record rest ih =>
      rw [survivors]
      split
      · exact ih
      · next hlater =>
          refine List.nodup_cons.2 ⟨fun hmem => hlater ?_, ih⟩
          obtain ⟨before, after, rfl, -⟩ := (mem_survivors record rest).1 hmem
          exact ⟨record, by simp, comparable_self _⟩

namespace Namespace

/-- After a run the bindings are those of the records that survive it, and the old ones that no
record of it displaced. -/
theorem Valid.mem_bindings_insertAll (b : List Text × Record) (records : List Record) :
    ∀ {ns : Namespace}, Valid ns → (b ∈ (Namespace.insertAll records ns).1.tree.bindings ↔
      (∃ record ∈ survivors records, b = (record.path, record))
        ∨ b ∈ ns.tree.bindings ∧ ∀ later ∈ records, ¬ Comparable b.1 later.path) := by
  induction records with
  | nil =>
      intro ns _
      simp [Namespace.insertAll, survivors]
  | cons record rest ih =>
      intro ns h
      -- the first record is an old one for the rest, and can be displaced by it
      have hnew : (b = (record.path, record) ∧ ∀ later ∈ rest, ¬ Comparable b.1 later.path) ↔
          b = (record.path, record) ∧ ¬ ∃ later ∈ rest, Comparable record.path later.path := by
        refine and_congr_right ?_
        rintro rfl
        simp
      rw [Namespace.insertAll, ih (h.insert record), h.mem_bindings_insert, or_and_right, hnew,
        List.forall_mem_cons, and_assoc, survivors]
      split
      · next hlater => simp only [hlater, not_true, and_false, false_or]
      · next hlater =>
          simp only [hlater, not_false_eq_true, and_true, List.mem_cons, exists_eq_or_imp]
          exact or_left_comm.trans or_assoc.symm

theorem mem_bindings_ofRecords (b : List Text × Record) (records : List Record) :
    b ∈ (ofRecords records).tree.bindings ↔
      ∃ record ∈ survivors records, b = (record.path, record) := by
  rw [ofRecords, valid_empty.mem_bindings_insertAll, tree_empty]
  simp

/-- What is below the root of a namespace of records are some of these, at their paths. -/
theorem exists_record_of_mem_bindings {b : List Text × Record} {records : List Record}
    (hb : b ∈ Tree.bindingsOfEntries (ofRecords records).tree.entries) :
    ∃ record ∈ records, b = (record.path, record) := by
  rw [← bindings_tree (valid_ofRecords records).sound, mem_bindings_ofRecords] at hb
  obtain ⟨record, hrecord, hpath⟩ := hb
  exact ⟨record, mem_of_mem_survivors hrecord, hpath⟩

/-- The classes of a namespace of records are the survivors. -/
theorem mem_leaves_ofRecords (record : Record) (records : List Record) :
    record ∈ (ofRecords records).leaves ↔ record ∈ survivors records := by
  rw [(valid_ofRecords records).mem_leaves_iff, mem_bindings_ofRecords]
  simp

/-- **The classes of a namespace are the records that no later record displaced**, each once, in
the byte order of the keys on their paths. -/
theorem leaves_ofRecords (records : List Record) :
    (ofRecords records).leaves.Perm (survivors records) ∧
      (ofRecords records).leaves.Pairwise fun a b =>
        a.path.map Utf8.encode < b.path.map Utf8.encode := by
  have hvalid := valid_ofRecords records
  refine ⟨?_, hvalid.leaves_strict.imp fun hab => ?_⟩
  · exact (List.perm_ext_iff_of_nodup hvalid.leaves_nodup (survivors_nodup records)).2 fun record =>
      mem_leaves_ofRecords record records
  · exact List.map_lt (fun _ _ => Utf8.encode_lt_encode) hab.1

-- `a.b.c` goes for the class `a.b`, and does not come back when that goes for the package
example : (ofRecords [⟨"a.b".toList, "c".toList, []⟩, ⟨"a".toList, "b".toList, []⟩,
    ⟨"a.b".toList, "d".toList, []⟩]).leaves = [⟨"a.b".toList, "d".toList, []⟩] := by
  decide

end Namespace

end PackageAtlas
