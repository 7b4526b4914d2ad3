import Mathlib.Data.List.Basic
import Mathlib.Data.List.Induction
import PackageAtlas.Diagram.Identifier
import PackageAtlas.Proofs.RecordPath

set_option autoImplicit false

/-! # Identifiers along a path

A drawing comes to a package key by key and extends the path with each (`Identifier.pathOf`), while
a dependency names the package as a whole. `pathOf_segments` says when the two are the same text.
Identifiers are hardly longer than the labels they are made of, so where a label stands in front of
its identifier it is told by the length of both (`Follows.label_unique`); and for keys without dots
and underscores the identifier tells all of them (`joined_injective`). A character that is neither
of the two is in an identifier if and only if it is in a name (`Kept`). -/

namespace PackageAtlas.Identifier

/-- The path of the package at the end of `keys`, extended with one key after the other. -/
def pathOf (keys : List Text) : Text :=
  keys.foldl extend []

@[simp] theorem pathOf_nil : pathOf [] = [] :=
  rfl

@[simp] theorem pathOf_concat (keys : List Text) (key : Text) :
    pathOf (keys ++ [key]) = extend (pathOf keys) key := by
  rw [pathOf, List.foldl_append, List.foldl_cons, List.foldl_nil, pathOf]

/-! ## Paths and whole names -/

theorem foldl_extend (keys : List Text) :
    ∀ {path : Text}, path ≠ [] → keys.foldl extend path = path ++ keys.flatMap ('.' :: ·) := by
  induction keys with
  | nil => simp
  | cons key rest ih =>
      intro path h
      have hnext : extend path key = path ++ '.' :: key := if_neg h
      rw [List.foldl_cons, hnext, ih (by simp), List.flatMap_cons, List.append_assoc,
        List.cons_append]

theorem intercalate_cons (separator : Char) (key : Text) (rest : List Text) :
    [separator].intercalate (key :: rest) = key ++ rest.flatMap (separator :: ·) := by
  induction rest generalizing key with
  | nil => simp
  | cons next rest ih => simp [List.intercalate_cons_cons, ih]

/-- Behind a first key that is not empty a path is its keys between dots. -/
theorem pathOf_cons {key : Text} (h : key ≠ []) (rest : List Text) :
    pathOf (key :: rest) = ['.'].intercalate (key :: rest) := by
  have hfirst : extend [] key = key := if_pos rfl
  rw [pathOf, List.foldl_cons, hfirst, foldl_extend rest h, intercalate_cons]

/-- Without a dot in front, only the empty name has an empty segment there. -/
theorem package_eq_nil_of_segments {record : Record} (h : record.package.head? ≠ some '.')
    {rest : List Text} (hsegments : record.segments = [] :: rest) :
    rest = [] ∧ record.package = [] := by
  have hjoin := record.intercalate_segments
  rw [hsegments, intercalate_cons, List.nil_append] at hjoin
  cases rest with
  | nil => exact ⟨rfl, hjoin.symm⟩
  | cons next more => exact absurd (by rw [← hjoin]; rfl) h

/-- **The path along the segments of a package is its name**, unless that begins with a dot. -/
theorem pathOf_segments {record : Record} (h : record.package.head? ≠ some '.') :
    pathOf record.segments = record.package := by
  obtain ⟨first, rest, hsegments⟩ := List.exists_cons_of_ne_nil record.segments_ne_nil
  by_cases hfirst : first = []
  · subst hfirst
    obtain ⟨rfl, hpackage⟩ := package_eq_nil_of_segments h hsegments
    rw [hsegments, hpackage]
    rfl
  · rw [hsegments, pathOf_cons hfirst, ← hsegments, record.intercalate_segments]

/-! ## Labels in front of their identifiers -/

@[simp] theorem length_flat (name : Text) : (flat name).length = name.length :=
  List.length_map _

theorem length_anchored (t : Text) :
    (anchored t).length = t.length ∨ (anchored t).length = t.length + 1 := by
  unfold anchored
  split
  · exact Or.inl rfl
  · exact Or.inr rfl

/-- Identifiers that are longer than their labels by a number of characters, or by one more. -/
def Follows (identify : Text → Text) : Prop :=
  ∃ more, ∀ label, (identify label).length = label.length + more
    ∨ (identify label).length = label.length + more + 1

theorem follows_ofClass (path : Text) : Follows (ofClass path) := by
  refine ⟨path.length + 1, fun label => ?_⟩
  have hlength := length_anchored (flat path ++ '_' :: flat label)
  simp only [List.length_append, List.length_cons, length_flat] at hlength
  unfold ofClass
  omega

theorem follows_ofPackage (path : Text) : Follows fun label => ofPackage (extend path label) := by
  by_cases hpath : path = []
  · refine ⟨0, fun label => ?_⟩
    have hlength := length_anchored (flat (extend path label))
    rw [length_flat, extend, if_pos hpath] at hlength
    simp only [ofPackage, extend, if_pos hpath]
    omega
  · refine ⟨path.length + 1, fun label => ?_⟩
    have hlength := length_anchored (flat (extend path label))
    rw [length_flat, extend, if_neg hpath, List.length_append, List.length_cons] at hlength
    simp only [ofPackage, extend, if_neg hpath]
    omega

/-- **A text is a label with its identifier in one way at most**, also if the label holds the words
between the two. -/
theorem Follows.label_unique {identify : Text → Text} (h : Follows identify) {label other : Text}
    {between : Text}
    (heq : label ++ between ++ identify label = other ++ between ++ identify other) :
    label = other := by
  obtain ⟨more, hmore⟩ := h
  have hlength := congrArg List.length heq
  simp only [List.length_append] at hlength
  -- twice the length of the label and one at most, so its length can be read off
  have hlabels : label.length = other.length := by
    have hlabel := hmore label
    have hother := hmore other
    omega
  rw [List.append_assoc, List.append_assoc] at heq
  exact (List.append_inj heq hlabels).1

/-! ## What identifiers are made of -/

theorem mem_flat {c : Char} {name : Text} (h : c ∈ flat name) : c = '_' ∨ c ∈ name ∧ c ≠ '.' := by
  obtain ⟨d, hd, rfl⟩ := List.mem_map.1 h
  split
  · exact Or.inl rfl
  · next hdot => exact Or.inr ⟨hd, hdot⟩

theorem mem_anchored {c : Char} {t : Text} (h : c ∈ anchored t) : c = '_' ∨ c ∈ t := by
  unfold anchored at h
  split at h
  · exact Or.inr h
  · exact List.mem_cons.1 h

theorem mem_ofPackage {c : Char} {path : Text} (h : c ∈ ofPackage path) : c = '_' ∨ c ∈ path :=
  (mem_anchored h).elim Or.inl fun hflat => (mem_flat hflat).imp_right And.left

theorem mem_ofClass {c : Char} {path name : Text} (h : c ∈ ofClass path name) :
    c = '_' ∨ c ∈ path ∨ c ∈ name := by
  rcases mem_anchored h with hc | hc
  · exact Or.inl hc
  · rcases List.mem_append.1 hc with hpath | hname
    · exact (mem_flat hpath).imp_right fun hmem => Or.inl hmem.1
    · rcases List.mem_cons.1 hname with hc | hname
      · exact Or.inl hc
      · exact (mem_flat hname).imp_right fun hmem => Or.inr hmem.1

theorem mem_extend {c : Char} {path segment : Text} (h : c ∈ extend path segment) :
    c = '.' ∨ c ∈ path ∨ c ∈ segment := by
  unfold extend at h
  split at h
  · exact Or.inr (Or.inr h)
  · rcases List.mem_append.1 h with hpath | hsegment
    · exact Or.inr (Or.inl hpath)
    · exact (List.mem_cons.1 hsegment).imp_right Or.inr

theorem head?_anchored (t : Text) : (anchored t).head? = some '_' := by
  unfold anchored
  split
  · next h => exact h
  · rfl

theorem head?_ofPackage (path : Text) : (ofPackage path).head? = some '_' :=
  head?_anchored (flat path)

theorem head?_ofClass (path name : Text) : (ofClass path name).head? = some '_' :=
  head?_anchored _

theorem dot_not_mem_flat (name : Text) : '.' ∉ flat name := fun h =>
  (mem_flat h).elim (by decide) fun hmem => hmem.2 rfl

theorem dot_not_mem_ofPackage (path : Text) : '.' ∉ ofPackage path := fun h =>
  (mem_anchored h).elim (by decide) (dot_not_mem_flat path)

theorem dot_not_mem_ofClass (path name : Text) : '.' ∉ ofClass path name := fun h => by
  rcases mem_anchored h with hdot | hmem
  · exact absurd hdot (by decide)
  · simp [dot_not_mem_flat] at hmem

/-! ## Characters that are kept -/

/-- Neither of the two characters that identifiers do not tell apart. -/
def Kept (c : Char) : Prop :=
  c ≠ '.' ∧ c ≠ '_'

namespace Kept

variable {c : Char}

theorem mem_flat_iff (h : Kept c) (name : Text) : c ∈ flat name ↔ c ∈ name :=
  ⟨fun hmem => ((mem_flat hmem).resolve_left h.2).1, fun hmem =>
    List.mem_map.2 ⟨c, hmem, if_neg h.1⟩⟩

theorem mem_anchored_iff (h : Kept c) (t : Text) : c ∈ anchored t ↔ c ∈ t := by
  refine ⟨fun hmem => (mem_anchored hmem).resolve_left h.2, fun hmem => ?_⟩
  unfold anchored
  split
  · exact hmem
  · exact List.mem_cons_of_mem _ hmem

theorem mem_ofPackage_iff (h : Kept c) (path : Text) : c ∈ ofPackage path ↔ c ∈ path := by
  rw [ofPackage, h.mem_anchored_iff, h.mem_flat_iff]

theorem mem_ofClass_iff (h : Kept c) (path name : Text) :
    c ∈ ofClass path name ↔ c ∈ path ∨ c ∈ name := by
  rw [ofClass, h.mem_anchored_iff, List.mem_append, List.mem_cons, h.mem_flat_iff, h.mem_flat_iff,
    or_iff_right h.2]

theorem mem_extend_iff (h : Kept c) (path segment : Text) :
    c ∈ extend path segment ↔ c ∈ path ∨ c ∈ segment := by
  unfold extend
  split
  · next hpath => simp [hpath]
  · rw [List.mem_append, List.mem_cons, or_iff_right h.1]

theorem mem_pathOf_iff (h : Kept c) (keys : List Text) :
    c ∈ pathOf keys ↔ ∃ key ∈ keys, c ∈ key := by
  induction keys using List.reverseRecOn with
  | nil => simp
  | append_singleton front key ih => simp [h.mem_extend_iff, ih, or_and_right, exists_or]

/-- A package has the characters of its segments. -/
theorem mem_package_iff (h : Kept c) (record : Record) :
    c ∈ record.package ↔ ∃ segment ∈ record.segments, c ∈ segment := by
  refine ⟨fun hmem => ?_, fun ⟨segment, hsegment, hc⟩ =>
    record.mem_package_of_mem_segment segment hsegment c hc⟩
  obtain ⟨first, rest, hsegments⟩ := List.exists_cons_of_ne_nil record.segments_ne_nil
  rw [← record.intercalate_segments, hsegments, intercalate_cons, List.mem_append,
    List.mem_flatMap] at hmem
  rw [hsegments]
  rcases hmem with hfirst | ⟨segment, hsegment, hc⟩
  · exact ⟨first, List.mem_cons_self .., hfirst⟩
  · exact ⟨segment, List.mem_cons_of_mem _ hsegment, (List.mem_cons.1 hc).resolve_left h.1⟩

end Kept

/-! ## Identifiers that tell all keys -/

/-- The keys between underscores, and one in front: an identifier that no key disturbs. -/
def joined (keys : List Text) : Text :=
  '_' :: ['_'].intercalate keys

/-- Whether neither a dot nor an underscore is in `key`. -/
def Plain (key : Text) : Prop :=
  '.' ∉ key ∧ '_' ∉ key

theorem joined_injective {keys others : List Text} (hkeys : ∀ key ∈ keys, Plain key)
    (hothers : ∀ key ∈ others, Plain key) (hne : keys ≠ []) (hne' : others ≠ [])
    (h : joined keys = joined others) : keys = others := by
  have hsplit := congrArg (List.splitOn '_') (List.cons.inj h).2
  rwa [List.splitOn_intercalate '_' (fun key hkey => (hkeys key hkey).2) hne,
    List.splitOn_intercalate '_' (fun key hkey => (hothers key hkey).2) hne'] at hsplit

theorem flat_of_plain {key : Text} (h : Plain key) : flat key = key := by
  refine (List.map_congr_left fun c hc => ?_).trans (List.map_id key)
  exact if_neg fun (hdot : c = '.') => h.1 (hdot ▸ hc)

theorem flat_append (a b : Text) : flat (a ++ b) = flat a ++ flat b :=
  List.map_append

theorem flat_intercalate {keys : List Text} (h : ∀ key ∈ keys, Plain key) :
    flat (['.'].intercalate keys) = ['_'].intercalate keys := by
  cases keys with
  | nil => rfl
  | cons key rest =>
      obtain ⟨hkey, hrest⟩ := List.forall_mem_cons.1 h
      rw [intercalate_cons, intercalate_cons, flat_append, flat_of_plain hkey]
      refine congrArg (key ++ ·) ?_
      rw [flat, List.map_flatMap]
      refine List.flatMap_congr fun k hk => ?_
      rw [List.map_cons, if_pos rfl]
      exact congrArg ('_' :: ·) (flat_of_plain (hrest k hk))

theorem ofPackage_pathOf {key : Text} {rest : List Text} (hne : key ≠ [])
    (h : ∀ k ∈ key :: rest, Plain k) : ofPackage (pathOf (key :: rest)) = joined (key :: rest) := by
  obtain ⟨first, more, rfl⟩ := List.exists_cons_of_ne_nil hne
  have hfirst : first ≠ '_' := fun he =>
    (h _ (List.mem_cons_self ..)).2 (he ▸ List.mem_cons_self ..)
  rw [ofPackage, pathOf_cons hne, flat_intercalate h, joined, anchored, if_neg]
  simpa [intercalate_cons] using hfirst

/-- Below a package whose path is not empty, a class has the identifier of a package there. -/
theorem ofClass_eq_ofPackage {path : Text} (h : path ≠ []) (name : Text) :
    ofClass path name = ofPackage (extend path name) := by
  rw [ofClass, ofPackage, extend, if_neg h, flat_append]
  rfl

/-- A class has the identifier that joins all keys on its path, like a package. -/
theorem ofClass_pathOf {key : Text} {rest front : List Text} {name : Text} (hne : key ≠ [])
    (hkeys : front ++ [name] = key :: rest) (h : ∀ k ∈ key :: rest, Plain k) :
    ofClass (pathOf front) name = joined (key :: rest) := by
  cases front with
  | nil =>
      obtain ⟨rfl, rfl⟩ := List.cons.inj hkeys
      rw [pathOf_nil, ofClass, flat_of_plain (h name (List.mem_cons_self ..))]
      simp [flat, anchored, joined]
  | cons first more =>
      obtain rfl : first = key := (List.cons.inj hkeys).1
      have hpath : pathOf (first :: more) ≠ [] := by
        rw [pathOf_cons hne, intercalate_cons]
        simp [hne]
      rw [ofClass_eq_ofPackage hpath, ← pathOf_concat, hkeys, ofPackage_pathOf hne h]

end PackageAtlas.Identifier
