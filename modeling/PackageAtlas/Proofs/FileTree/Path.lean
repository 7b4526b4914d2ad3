import PackageAtlas.Proofs.FileTree.Resolution
import PackageAtlas.Proofs.RecordPath

set_option autoImplicit false

/-! # Paths of folders and of what is in them

`FileTree.Opens` says of a path that it leads to a folder. A name put behind such a path leads to
a folder with the name (`Opens.join`). The parent of the longer path is the path `bare` of slashes
and dots at its end (`parent_join`), which leads to the same folder (`Opens.bare`). -/

namespace PackageAtlas

namespace Path

/-! ## Pieces -/

/-- The pieces of a path between its slashes that are not empty. -/
def pieces (path : Bytes) : List Bytes :=
  (path.splitOn slash).filter (· ≠ [])

/-- A path without the slashes and dots at its end. -/
def bare (path : Bytes) : Bytes :=
  ofPieces (dropNameless (path.splitOn slash).reverse)

theorem names_eq (path : Bytes) :
    ∃ ends, names path = pieces path ++ ends ∧ ∀ piece ∈ ends, Nameless piece := by
  refine ⟨_, rfl, ?_⟩
  split
  · exact fun piece hpiece => Or.inl (List.mem_singleton.1 hpiece)
  · exact fun piece hpiece => absurd hpiece List.not_mem_nil

/-- The pieces of a path with a name behind it are those of the path, which may have an empty one
at its end, and the name. -/
theorem splitOn_join {folder : Bytes} (hfolder : folder ≠ []) {name : Bytes}
    (hname : slash ∉ name) : ∃ front ≠ [],
      (join folder name).splitOn slash = front ++ [name] ∧
        (folder.splitOn slash = front ∨ folder.splitOn slash = front ++ [[]]) := by
  rw [join]
  split
  · next h =>
      obtain ⟨outer, rfl⟩ := List.getLast?_eq_some_iff.1 (h.resolve_left hfolder)
      refine ⟨outer.splitOn slash, List.splitOn_ne_nil slash _, ?_, Or.inr ?_⟩
      · rw [List.append_assoc, List.singleton_append, List.splitOn_append_cons_self,
          List.splitOn_eq_singleton hname]
      · rw [List.splitOn_append_cons_self, List.splitOn_nil]
  · refine ⟨folder.splitOn slash, List.splitOn_ne_nil slash _, ?_, Or.inl rfl⟩
    rw [List.splitOn_append_cons_self, List.splitOn_eq_singleton hname]

theorem pieces_join {folder : Bytes} (hfolder : folder ≠ []) {name : Bytes} (hne : name ≠ [])
    (hslash : slash ∉ name) : pieces (join folder name) = pieces folder ++ [name] := by
  obtain ⟨front, -, hjoin, hfront⟩ := splitOn_join hfolder hslash
  rcases hfront with h | h <;> simp [pieces, hjoin, h, hne]

theorem names_of_getLast? {path : Bytes} (h : path.getLast? ≠ some slash) :
    names path = pieces path := by
  rw [names, if_neg h, List.append_nil, pieces]

theorem names_eq_singleton {name : Bytes} (hne : name ≠ []) (hslash : slash ∉ name) :
    names name = [name] := by
  rw [names_of_getLast? fun hlast => hslash (List.mem_of_getLast? hlast), pieces,
    List.splitOn_eq_singleton hslash]
  simp [hne]

theorem names_join {folder : Bytes} (hfolder : folder ≠ []) {name : Bytes} (hne : name ≠ [])
    (hslash : slash ∉ name) : names (join folder name) = pieces folder ++ [name] := by
  obtain ⟨front, hfront⟩ : ∃ front, join folder name = front ++ name := by
    rw [join]
    split
    · exact ⟨folder, rfl⟩
    · exact ⟨folder ++ [slash], List.append_cons ..⟩
  have hlast : (join folder name).getLast? ≠ some slash := by
    rw [hfront, List.getLast?_append_of_ne_nil _ hne]
    exact fun hlast => hslash (List.mem_of_getLast? hlast)
  rw [names_of_getLast? hlast, pieces_join hfolder hne hslash]

/-- Every path has a last piece, which may be empty, and nothing or a slash before it. -/
theorem exists_last (path : Bytes) : ∃ directory last, path = directory ++ last ∧ slash ∉ last ∧
    (directory = [] ∨ directory.getLast? = some slash) := by
  induction path using List.reverseRecOn with
  | nil => exact ⟨[], [], rfl, List.not_mem_nil, Or.inl rfl⟩
  | append_singleton front b ih =>
      by_cases hb : b = slash
      · exact ⟨front ++ [b], [], (List.append_nil _).symm, List.not_mem_nil,
          Or.inr (by rw [List.getLast?_concat, hb])⟩
      · obtain ⟨directory, last, rfl, hlast, hdirectory⟩ := ih
        refine ⟨directory, last ++ [b], List.append_assoc .., ?_, hdirectory⟩
        simp [hlast, Ne.symm hb]

/-- The last piece of a path is its last name, be there something in it or not. -/
theorem names_append {directory last : Bytes} (hne : directory ++ last ≠ []) (hslash : slash ∉ last)
    (hdirectory : directory = [] ∨ directory.getLast? = some slash) :
    names (directory ++ last) = pieces directory ++ [last] := by
  by_cases hlast : last = []
  · subst hlast
    rw [List.append_nil] at hne ⊢
    rw [names, if_pos (hdirectory.resolve_left hne), pieces]
  · by_cases hnil : directory = []
    · rw [hnil, List.nil_append, names_eq_singleton hlast hslash]
      rfl
    · have hjoin : join directory last = directory ++ last := if_pos hdirectory
      rw [← hjoin, names_join hnil hlast hslash]

theorem begins_join (folder name : Bytes) : folder <+: join folder name := by
  rw [join]
  split <;> exact List.prefix_append ..

theorem zero_not_mem_join {folder name : Bytes} (hfolder : 0 ∉ folder) (hname : 0 ∉ name) :
    0 ∉ join folder name := by
  have hslash : (0 : UInt8) ≠ slash := by decide
  rw [join]
  split <;> simp [hfolder, hname, hslash]

/-! ## Paths without slashes and dots at the end -/

theorem dropNameless_spec (pieces : List Bytes) :
    ∃ dropped, pieces = dropped ++ dropNameless pieces ∧ ∀ piece ∈ dropped, Nameless piece := by
  fun_induction dropNameless pieces with
  | case1 => exact ⟨[], rfl, by simp⟩
  | case2 first => exact ⟨[], rfl, by simp⟩
  | case3 piece next rest h ih =>
      obtain ⟨dropped, heq, hdropped⟩ := ih
      refine ⟨piece :: dropped, congrArg (piece :: ·) heq, fun other hother => ?_⟩
      rcases List.mem_cons.1 hother with rfl | hother
      · exact h
      · exact hdropped other hother
  | case4 piece next rest h => exact ⟨[], rfl, by simp⟩

theorem dropNameless_ne_nil {pieces : List Bytes} (h : pieces ≠ []) : dropNameless pieces ≠ [] := by
  fun_induction dropNameless pieces with
  | case1 => exact h
  | case2 first => exact h
  | case3 piece next rest _ ih => exact ih (List.cons_ne_nil _ _)
  | case4 piece next rest _ => exact h

theorem parent_join {folder : Bytes} (hfolder : folder ≠ []) {name : Bytes}
    (hname : LegalName name) : parent (join folder name) = bare folder := by
  obtain ⟨front, hne, hjoin, hfront⟩ := splitOn_join hfolder hname.slash_not_mem
  obtain ⟨last, above, hrev⟩ := List.exists_cons_of_ne_nil (mt List.reverse_eq_nil_iff.1 hne)
  have hbare : dropNameless (folder.splitOn slash).reverse = dropNameless (last :: above) := by
    rcases hfront with h | h
    · rw [h, hrev]
    · rw [h, List.reverse_append, hrev, List.reverse_singleton, List.singleton_append, dropNameless,
        if_pos (Or.inl rfl)]
  rw [parent, hjoin, List.reverse_append, hrev, List.reverse_singleton, List.singleton_append,
    dropNameless, if_neg (not_or.2 ⟨hname.ne_nil, hname.ne_dot⟩), bare, hbare]

/-- The kept pieces of a path, in their order, and those at its end that are not. -/
theorem exists_kept (path : Bytes) : ∃ kept ends, kept ≠ [] ∧ path.splitOn slash = kept ++ ends ∧
    (∀ piece ∈ ends, Nameless piece) ∧
      bare path = if kept = [[]] then [slash] else [slash].intercalate kept := by
  obtain ⟨dropped, heq, hdropped⟩ := dropNameless_spec (path.splitOn slash).reverse
  have hne := dropNameless_ne_nil (mt List.reverse_eq_nil_iff.1 (List.splitOn_ne_nil slash path))
  refine ⟨(dropNameless (path.splitOn slash).reverse).reverse, dropped.reverse,
    mt List.reverse_eq_nil_iff.1 hne, ?_, fun piece hpiece =>
      hdropped piece (List.mem_reverse.1 hpiece), ?_⟩
  · rw [← List.reverse_append, ← heq, List.reverse_reverse]
  · simp only [bare, ofPieces, List.reverse_eq_iff, List.reverse_singleton]

theorem slash_not_mem_of_kept {path : Bytes} {kept ends : List Bytes}
    (h : path.splitOn slash = kept ++ ends) : ∀ piece ∈ kept, slash ∉ piece := fun piece hpiece =>
  Record.not_mem_of_mem_splitOn slash path piece (h ▸ List.mem_append_left _ hpiece)

theorem bare_ne_nil (path : Bytes) : bare path ≠ [] := by
  obtain ⟨kept, ends, hne, hsplit, -, hbare⟩ := exists_kept path
  rw [hbare]
  split
  · exact List.cons_ne_nil _ _
  · next hkept =>
      intro hnil
      have hback := List.splitOn_intercalate slash (slash_not_mem_of_kept hsplit) hne
      rw [hnil, List.splitOn_nil] at hback
      exact hkept hback.symm

theorem pieces_bare (path : Bytes) :
    ∃ ends, pieces path = pieces (bare path) ++ ends ∧ ∀ piece ∈ ends, Nameless piece := by
  obtain ⟨kept, ends, hne, hsplit, hends, hbare⟩ := exists_kept path
  refine ⟨ends.filter (· ≠ []), ?_, fun piece hpiece => hends piece (List.mem_of_mem_filter hpiece)⟩
  have hkept : pieces (bare path) = kept.filter (· ≠ []) := by
    rw [hbare]
    split
    · next h => rw [h]; rfl
    · rw [pieces, List.splitOn_intercalate slash (slash_not_mem_of_kept hsplit) hne]
  rw [hkept, pieces, hsplit, List.filter_append]

theorem begins_intercalate {front : List Bytes} (hfront : front ≠ []) (rest : List Bytes) :
    [slash].intercalate front <+: [slash].intercalate (front ++ rest) := by
  induction front with
  | nil => exact absurd rfl hfront
  | cons piece front ih =>
      cases front with
      | nil =>
          cases rest with
          | nil => exact List.prefix_refl _
          | cons next rest =>
              rw [List.intercalate_singleton, List.singleton_append, List.intercalate_cons_cons,
                List.append_assoc]
              exact List.prefix_append ..
      | cons next front =>
          rw [List.intercalate_cons_cons, List.cons_append, List.cons_append,
            List.intercalate_cons_cons]
          exact List.prefix_append_right_inj _ |>.2 (ih (List.cons_ne_nil _ _))

theorem bare_begins {path : Bytes} (hpath : path ≠ []) : bare path <+: path := by
  obtain ⟨kept, ends, hne, hsplit, -, hbare⟩ := exists_kept path
  have hback : [slash].intercalate (kept ++ ends) = path := by
    rw [← hsplit, List.intercalate_splitOn]
  rw [hbare]
  split
  · next hkept =>
      subst hkept
      cases ends with
      | nil => exact absurd hback.symm hpath
      | cons next ends =>
          rw [← hback, List.singleton_append, List.intercalate_cons_cons, List.nil_append]
          exact List.prefix_append ..
  · rw [← hback]
    exact begins_intercalate hne ends

end Path

/-! ## Opening folders -/

namespace FileTree

variable {tree : FileTree}

/-- A path leads to the folder at a location, which has these entries. -/
structure Opens (tree : FileTree) (path : Bytes) (location : Location)
    (entries : List (Bytes × Entry)) : Prop where
  ne_nil : path ≠ []
  zero_not_mem : 0 ∉ path
  leads : ∃ left, tree.resolveLinks linkLimit (startOf tree.here path) (Path.pieces path)
    = .ok (location, left)
  isFolder : tree.at? location = some (.folder entries)

theorem locate_eq {path : Bytes} (hne : path ≠ []) (hzero : 0 ∉ path) (purpose : Purpose) :
    tree.locate purpose path
      = tree.resolveFrom purpose linkLimit (startOf tree.here path) (Path.names path) := by
  rw [locate, if_neg (by simpa using hzero), if_neg hne]

theorem ne_nil_of_locate {purpose : Purpose} {path : Bytes} {location : Location}
    (h : tree.locate purpose path = .ok location) : path ≠ [] ∧ 0 ∉ path := by
  rw [locate] at h
  split_ifs at h with hzero hne
  exact ⟨hne, by simpa using hzero⟩

theorem resolve_eq_ok_iff {purpose : Purpose} {path : Bytes} {location : Location} :
    tree.resolve purpose path = .ok location ↔
      isTooLong path = false ∧ tree.locate purpose path = .ok location := by
  rw [resolve]
  constructor
  · intro h
    split_ifs at h with hlong
    obtain ⟨-, hzero⟩ := ne_nil_of_locate h
    exact ⟨by simpa [hzero] using hlong, h⟩
  · rintro ⟨hlong, hlocate⟩
    rw [if_neg (by simp [hlong]), hlocate]

theorem isTooLong_of_begins {path longer : Bytes} (hbegin : path <+: longer)
    (hlonger : isTooLong longer = false) : isTooLong path = false := by
  have hle := hbegin.length_le
  simp only [isTooLong, decide_eq_false_iff_not] at hlonger ⊢
  omega

/-- Looking at what a path leads to finds it, or a link. -/
theorem resolve_inspect {path : Bytes} {location : Location}
    (h : tree.resolve .use path = .ok location) :
    ∃ seen, tree.resolve .inspect path = .ok seen ∧
      (seen = location ∨ ∃ target, tree.at? seen = some (.link target)) := by
  obtain ⟨hlong, hlocate⟩ := resolve_eq_ok_iff.1 h
  obtain ⟨hne, hzero⟩ := ne_nil_of_locate hlocate
  rw [locate_eq hne hzero] at hlocate
  obtain ⟨seen, hseen, hcases⟩ := tree.resolveFrom_inspect hlocate
  exact ⟨seen, resolve_eq_ok_iff.2 ⟨hlong, by rw [locate_eq hne hzero, hseen]⟩, hcases⟩

theorem opens_iff {path : Bytes} {location : Location} {entries : List (Bytes × Entry)} :
    tree.Opens path location entries ↔
      tree.locate .use path = .ok location ∧ tree.at? location = some (.folder entries) := by
  obtain ⟨ends, hnames, hends⟩ := Path.names_eq path
  constructor
  · intro h
    obtain ⟨left, hleads⟩ := h.leads
    refine ⟨?_, h.isFolder⟩
    rw [locate_eq h.ne_nil h.zero_not_mem, resolveFrom_use, hnames, resolveLinks_append, hleads]
    simp only [Except.bind, resolveLinks_nameless h.isFolder hends, Except.map]
  · rintro ⟨hlocate, hfolder⟩
    obtain ⟨hne, hzero⟩ := ne_nil_of_locate hlocate
    refine ⟨hne, hzero, ?_, hfolder⟩
    rw [locate_eq hne hzero, resolveFrom_use, hnames] at hlocate
    cases hresolve : tree.resolveLinks linkLimit (startOf tree.here path) (Path.pieces path ++ ends)
      with
    | error e => simp [hresolve, Except.map] at hlocate
    | ok stop =>
        obtain ⟨between, hpieces, hrest⟩ := tree.exists_of_resolveLinks_append hresolve
        obtain rfl := eq_of_resolveLinks_nameless hends hrest
        rw [hresolve] at hlocate
        exact ⟨between.2, by rw [hpieces, ← Except.ok.inj hlocate]⟩

/-- What a path leads to is opened unless there is a fault. -/
theorem opened_eq_ok_iff {path : Bytes} {found : Entry} :
    tree.opened path = .ok found ↔ ∃ location, tree.resolve .use path = .ok location ∧
      tree.fault? .reading location = none ∧ tree.at? location = some found := by
  constructor
  · intro h
    rw [opened] at h
    split at h
    · cases h
    · next location hresolve =>
        split at h
        · cases h
        · next hfault =>
            simp only [entry, hresolve] at h
            split at h
            · next hat =>
                exact ⟨location, hresolve, hfault, hat.trans (congrArg some (Except.ok.inj h))⟩
            · cases h
  · rintro ⟨location, hresolve, hfault, hat⟩
    simp only [opened, entry, hresolve, hfault, hat]

theorem startOf_eq_of_begins (here : Location) {path longer : Bytes} (hpath : path ≠ [])
    (hbegin : path <+: longer) : startOf here longer = startOf here path := by
  obtain ⟨rest, rfl⟩ := hbegin
  rw [startOf, startOf, Path.isAbsolute, Path.isAbsolute, List.head?_append_of_ne_nil _ hpath]

theorem startOf_of_slash_not_mem (here : Location) {path : Bytes} (h : Path.slash ∉ path) :
    startOf here path = here :=
  if_neg fun habsolute => h (List.mem_of_head? (of_decide_eq_true habsolute))

variable {path : Bytes} {location : Location} {entries : List (Bytes × Entry)}

/-- The path of a folder in a folder. -/
theorem Opens.join (h : tree.Opens path location entries) {name : Bytes} (hname : LegalName name)
    {inner : List (Bytes × Entry)} (hget : Table.get? name entries = some (.folder inner)) :
    tree.Opens (Path.join path name) (location ++ [name]) inner := by
  obtain ⟨left, hleads⟩ := h.leads
  refine ⟨fun hnil => h.ne_nil ?_, Path.zero_not_mem_join h.zero_not_mem hname.zero_not_mem,
    ⟨left, ?_⟩, tree.at?_entry h.isFolder hget⟩
  · exact List.prefix_nil.1 (hnil ▸ Path.begins_join path name)
  · rw [startOf_eq_of_begins _ h.ne_nil (Path.begins_join path name),
      Path.pieces_join h.ne_nil hname.ne_nil hname.slash_not_mem, resolveLinks_append, hleads,
      Except.bind, resolveLinks_entry h.isFolder hname hget nofun]

/-- The path of a file in a folder. -/
theorem Opens.read_join (h : tree.Opens path location entries) {name : Bytes}
    (hname : LegalName name) {content : Bytes}
    (hget : Table.get? name entries = some (.file content))
    (hshort : isTooLong (Path.join path name) = false)
    (hfault : tree.fault? .reading (location ++ [name]) = none) :
    tree.read (Path.join path name) = .ok content := by
  obtain ⟨left, hleads⟩ := h.leads
  have hbegin := Path.begins_join path name
  have hlocate : tree.locate .use (Path.join path name) = .ok (location ++ [name]) := by
    rw [locate_eq (fun hnil => h.ne_nil (List.prefix_nil.1 (hnil ▸ hbegin)))
        (Path.zero_not_mem_join h.zero_not_mem hname.zero_not_mem),
      startOf_eq_of_begins _ h.ne_nil hbegin,
      Path.names_join h.ne_nil hname.ne_nil hname.slash_not_mem, resolveFrom_use,
      resolveLinks_append, hleads, Except.bind, resolveLinks_entry h.isFolder hname hget nofun]
    rfl
  have hopened := opened_eq_ok_iff.2 ⟨_, resolve_eq_ok_iff.2 ⟨hshort, hlocate⟩, hfault,
    tree.at?_entry h.isFolder hget⟩
  rw [read, hopened]

/-- A path without slashes and dots at the end leads where the path does. -/
theorem Opens.bare (h : tree.Opens path location entries) :
    tree.Opens (Path.bare path) location entries := by
  obtain ⟨left, hleads⟩ := h.leads
  obtain ⟨ends, hpieces, hends⟩ := Path.pieces_bare path
  have hbegin := Path.bare_begins h.ne_nil
  refine ⟨Path.bare_ne_nil path, fun hzero => h.zero_not_mem (hbegin.subset hzero), ?_, h.isFolder⟩
  rw [startOf_eq_of_begins _ (Path.bare_ne_nil path) hbegin, hpieces] at hleads
  obtain ⟨between, hbare, hrest⟩ := tree.exists_of_resolveLinks_append hleads
  obtain rfl : location = between.1 :=
    congrArg Prod.fst (eq_of_resolveLinks_nameless hends hrest)
  exact ⟨between.2, hbare⟩

end FileTree

end PackageAtlas
