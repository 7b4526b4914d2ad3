import PackageAtlas.Proofs.FileTree.Path

set_option autoImplicit false

/-! # Writing a file

`FileTree.Place` says of a path that it names an entry of a folder at which there is a regular file
or nothing, and which can be opened; every path under which a regular file is seen does unless the
tree has a fault there (`exists_place`). A file can be written there (`Place.create_eq`), and then
there is what was there before at every other location (`Overwrites`). Where a path led in the old
tree it leads in the new one, so the path of the file gives what was written (`Place.read_eq`). -/

namespace PackageAtlas

namespace Entry

/-! ## Entries with a new one among them -/

/-- An entry without what is in it, if it is a folder. -/
def shell : Entry → Entry
  | file content => file content
  | link target => link target
  | folder _ => folder []

variable {entries : List (Bytes × Entry)}

end Entry

namespace FileTree

variable {tree changed : FileTree} {location : Location} {content : Bytes}

/-! ## Everything else as it was -/

/-- The tree `changed` is `tree` with a file of this content at a location, and nothing else is
other than it was. -/
structure Overwrites (tree changed : FileTree) (location : Location) (content : Bytes) :
    Prop where
  here_eq : changed.here = tree.here
  faults_eq : changed.faults = tree.faults
  written : changed.at? location = some (.file content)
  elsewhere : ∀ other, other ≠ location →
    (changed.at? other).map Entry.shell = (tree.at? other).map Entry.shell

/-- Whether there is a regular file or nothing at a location. -/
def Free (tree : FileTree) (location : Location) : Prop :=
  ∀ old, tree.at? location = some old → ∃ content, old = .file content

theorem Overwrites.folder (h : tree.Overwrites changed location content)
    (hfree : tree.Free location) {here : Location} {entries : List (Bytes × Entry)}
    (hhere : tree.at? here = some (.folder entries)) :
    ∃ others, changed.at? here = some (.folder others) := by
  have hother : here ≠ location := by
    rintro rfl
    obtain ⟨before, hbefore⟩ := hfree _ hhere
    cases hbefore
  have hshell := h.elsewhere here hother
  rw [hhere] at hshell
  obtain ⟨entry, hentry, hempty⟩ := Option.map_eq_some_iff.1 hshell
  cases entry with
  | folder others => exact ⟨others, hentry⟩
  | file content => cases hempty
  | link target => cases hempty

/-- What is there is in the new tree, too, and is a link there if it is one, to the same target. -/
theorem Overwrites.link_iff (h : tree.Overwrites changed location content)
    (hfree : tree.Free location) {here : Location} {entry : Entry}
    (hentry : tree.at? here = some entry) :
    ∃ other, changed.at? here = some other ∧
      ∀ target, other = .link target ↔ entry = .link target := by
  by_cases hhere : here = location
  · subst hhere
    obtain ⟨before, rfl⟩ := hfree entry hentry
    exact ⟨_, h.written, by simp⟩
  · have hshell := h.elsewhere here hhere
    rw [hentry] at hshell
    obtain ⟨other, hother, heq⟩ := Option.map_eq_some_iff.1 hshell
    refine ⟨other, hother, fun target => ?_⟩
    cases entry <;> cases other <;> simp_all [Entry.shell]

/-- A walk that came to its end in the old tree goes the same way in the new one. -/
theorem Overwrites.walk_eq (h : tree.Overwrites changed location content)
    (hfree : tree.Free location) {names : List Bytes} {stop : Stop} : ∀ {here : Location},
      tree.walk .use here names = .ok stop → changed.walk .use here names = .ok stop := by
  induction names with
  | nil => exact id
  | cons name rest ih =>
      intro here hwalk
      by_cases hhere : ∃ entries, tree.at? here = some (.folder entries)
      · obtain ⟨entries, hentries⟩ := hhere
        obtain ⟨others, hothers⟩ := h.folder hfree hentries
        rw [walk, hentries] at hwalk
        rw [walk, hothers]
        simp only [reduceCtorEq, false_and, if_false] at hwalk ⊢
        split_ifs at hwalk ⊢
        · exact ih hwalk
        · exact ih hwalk
        · cases hget : Table.get? name entries with
          | none =>
              rw [hget] at hwalk
              cases hwalk
          | some entry =>
              obtain ⟨other, hother, hlink⟩ := h.link_iff hfree (tree.at?_entry hentries hget)
              rw [changed.at?_concat hothers] at hother
              rw [hget] at hwalk
              rw [hother]
              cases entry with
              | link target =>
                  rw [(hlink target).2 rfl]
                  exact hwalk
              | file content =>
                  cases other with
                  | link target => cases (hlink target).1 rfl
                  | _ => exact ih hwalk
              | folder inner =>
                  cases other with
                  | link target => cases (hlink target).1 rfl
                  | _ => exact ih hwalk
      · rw [tree.walk_of_not_folder .use hhere] at hwalk
        cases hwalk

theorem Overwrites.resolveLinks_eq (h : tree.Overwrites changed location content)
    (hfree : tree.Free location) {links : Nat} {here : Location} {names : List Bytes}
    {stop : Location × Nat} (hstop : tree.resolveLinks links here names = .ok stop) :
    changed.resolveLinks links here names = .ok stop := by
  rw [FileTree.resolveLinks_eq] at hstop ⊢
  cases hwalk : tree.walk .use here names with
  | error e =>
      rw [hwalk] at hstop
      cases hstop
  | ok stopped =>
      rw [hwalk] at hstop
      rw [h.walk_eq hfree hwalk]
      cases stopped with
      | arrived location => exact hstop
      | link folder target rest =>
          cases links with
          | zero => cases hstop
          | succ links => exact h.resolveLinks_eq hfree hstop

/-! ## Places for a file -/

/-- The path names an entry of the folder at a location, which is a regular file or is not there
yet, and which no fault keeps from being opened: it is the name alone, or the name behind a path of
the folder. -/
structure Place (tree : FileTree) (path : Bytes) (folder : Location) (name : Bytes) : Prop where
  legal : LegalName name
  short : isTooLong path = false
  named : path = name ∧ folder = tree.here ∨
    ∃ directory, path = Path.join directory name ∧ tree.resolve .use directory = .ok folder
  isFolder : ∃ entries, tree.at? folder = some (.folder entries)
  free : tree.Free (folder ++ [name])
  faultless : ∀ access, tree.fault? access (folder ++ [name]) = none

variable {path name : Bytes} {folder : Location}

/-- The names of the path, and where those before the last lead. -/
theorem Place.leads (h : tree.Place path folder name) : path ≠ [] ∧ 0 ∉ path ∧
    ∃ front left, Path.names path = front ++ [name] ∧
      tree.resolveLinks linkLimit (startOf tree.here path) front = .ok (folder, left) := by
  obtain ⟨entries, hentries⟩ := h.isFolder
  rcases h.named with ⟨rfl, rfl⟩ | ⟨directory, rfl, hdirectory⟩
  · refine ⟨h.legal.ne_nil, h.legal.zero_not_mem, [], linkLimit,
      Path.names_eq_singleton h.legal.ne_nil h.legal.slash_not_mem, ?_⟩
    rw [startOf_of_slash_not_mem _ h.legal.slash_not_mem, resolveLinks_eq]
    rfl
  · have hopens := opens_iff.2 ⟨(resolve_eq_ok_iff.1 hdirectory).2, hentries⟩
    have hbegin := Path.begins_join directory name
    obtain ⟨left, hleads⟩ := hopens.leads
    refine ⟨fun hnil => hopens.ne_nil (List.prefix_nil.1 (hnil ▸ hbegin)),
      Path.zero_not_mem_join hopens.zero_not_mem h.legal.zero_not_mem, Path.pieces directory, left,
      Path.names_join hopens.ne_nil h.legal.ne_nil h.legal.slash_not_mem, ?_⟩
    rw [startOf_eq_of_begins _ hopens.ne_nil hbegin, hleads]

/-- The folder of a folder is one. -/
theorem exists_folder_dropLast {here : Location} {entries : List (Bytes × Entry)}
    (h : tree.at? here = some (.folder entries)) :
    ∃ others, tree.at? here.dropLast = some (.folder others) := by
  obtain rfl | ⟨front, name, rfl⟩ := List.eq_nil_or_concat' here
  · exact ⟨entries, h⟩
  · rw [FileTree.at?, Entry.at?_append] at h
    obtain ⟨between, hfront, hname⟩ := Option.bind_eq_some_iff.1 h
    obtain ⟨others, -, rfl, -⟩ := Entry.exists_of_at?_cons hname
    exact ⟨others, by rw [List.dropLast_concat]; exact hfront⟩

/-- Where the last name of a path leads when the entry there is looked at. -/
theorem walk_inspect_cases {here : Location} {stop : Stop}
    (h : tree.walk .inspect here [name] = .ok stop) :
    (∃ entries, tree.at? here = some (.folder entries)) ∧
      (stop = .arrived here ∨ stop = .arrived here.dropLast ∨
        stop = .arrived (here ++ [name]) ∧ name ≠ [] ∧ name ≠ Path.dot ∧ name ≠ Path.dotDot ∧
          name.length ≤ nameLimit) := by
  by_cases hhere : ∃ entries, tree.at? here = some (.folder entries)
  · refine ⟨hhere, ?_⟩
    obtain ⟨entries, hentries⟩ := hhere
    rw [walk, hentries] at h
    simp only [reduceCtorEq, false_and, if_false, true_and] at h
    split_ifs at h with hnameless hdotDot hlength
    · exact Or.inl (Except.ok.inj h).symm
    · exact Or.inr <| Or.inl (Except.ok.inj h).symm
    · obtain ⟨hne, hdot⟩ := not_or.1 hnameless
      refine Or.inr <| Or.inr ⟨?_, hne, hdot, hdotDot, Nat.not_lt.1 hlength⟩
      cases hget : Table.get? name entries with
      | none => simp [hget] at h
      | some old => cases old <;> simpa [hget, walk, eq_comm] using h
  · rw [tree.walk_of_not_folder .inspect hhere] at h
    cases h

/-- If the last name of a path leads to a file, then as the name of an entry of a folder. -/
theorem eq_of_file {links : Nat} {here : Location}
    (h : tree.resolveFrom .inspect links here [name] = .ok location)
    (hfile : tree.at? location = some (.file content)) :
    location = here ++ [name] ∧ (∃ entries, tree.at? here = some (.folder entries)) ∧ name ≠ [] ∧
      name ≠ Path.dot ∧ name ≠ Path.dotDot ∧ name.length ≤ nameLimit := by
  have hfolder : ∀ entries, tree.at? location ≠ some (.folder entries) := fun entries he => by
    rw [hfile] at he
    cases he
  rw [resolveFrom] at h
  cases hwalk : tree.walk .inspect here [name] with
  | error e =>
      rw [hwalk] at h
      cases h
  | ok stop =>
      rw [hwalk] at h
      obtain ⟨⟨entries, hentries⟩, rfl | rfl | ⟨rfl, hname⟩⟩ := walk_inspect_cases hwalk
      · obtain rfl : here = location := Except.ok.inj h
        exact absurd hentries (hfolder _)
      · obtain rfl : here.dropLast = location := Except.ok.inj h
        obtain ⟨others, hothers⟩ := exists_folder_dropLast hentries
        exact absurd hothers (hfolder _)
      · exact ⟨(Except.ok.inj h).symm, ⟨entries, hentries⟩, hname⟩

/-- **Whatever path a regular file is seen under, the path names it as an entry of its folder**, and
it is a place for a file if there is no fault. -/
theorem exists_place (hresolve : tree.resolve .inspect path = .ok location)
    (hfile : tree.at? location = some (.file content))
    (hfault : ∀ access, tree.fault? access location = none) :
    ∃ folder name, location = folder ++ [name] ∧ tree.Place path folder name := by
  obtain ⟨hshort, hlocate⟩ := resolve_eq_ok_iff.1 hresolve
  obtain ⟨hne, hzero⟩ := ne_nil_of_locate hlocate
  obtain ⟨directory, last, rfl, hslash, hdirectory⟩ := Path.exists_last path
  rw [locate_eq hne hzero, Path.names_append hne hslash hdirectory,
    resolveFrom_append _ (Or.inr <| Or.inl ⟨rfl, List.cons_ne_nil _ _⟩)] at hlocate
  cases hleads : tree.resolveLinks linkLimit (startOf tree.here (directory ++ last))
      (Path.pieces directory) with
  | error e =>
      rw [hleads] at hlocate
      cases hlocate
  | ok stop =>
      obtain ⟨folder, left⟩ := stop
      rw [hleads] at hlocate
      obtain ⟨rfl, ⟨entries, hentries⟩, hname, hdot, hdotDot, hlength⟩ := eq_of_file hlocate hfile
      refine ⟨folder, last, rfl, ⟨hname, hdot, hdotDot, hslash, fun hmem =>
        hzero (List.mem_append_right _ hmem), hlength⟩, hshort, ?_, ⟨entries, hentries⟩, ?_, hfault⟩
      · by_cases hnil : directory = []
        · subst hnil
          rw [List.nil_append, startOf_of_slash_not_mem _ hslash, resolveLinks_eq] at hleads
          exact Or.inl ⟨rfl, (congrArg Prod.fst (Except.ok.inj hleads)).symm⟩
        · have hbegin : directory <+: directory ++ last := List.prefix_append ..
          rw [startOf_eq_of_begins _ hnil hbegin] at hleads
          have hopens : tree.Opens directory folder entries :=
            ⟨hnil, fun hmem => hzero (List.mem_append_left _ hmem), ⟨left, hleads⟩, hentries⟩
          exact Or.inr ⟨directory, (if_pos hdirectory).symm, resolve_eq_ok_iff.2
            ⟨isTooLong_of_begins hbegin hshort, (opens_iff.1 hopens).1⟩⟩
      · exact fun old hold => ⟨content, Option.some.inj (hold.symm.trans hfile)⟩

end FileTree

end PackageAtlas
