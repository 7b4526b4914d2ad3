import PackageAtlas.Proofs.FileTree.Entries

set_option autoImplicit false

/-! # Resolving names one after the other

Resolving names and then more names is resolving the ones and going on with the others from where
they lead, with as many links to follow as are left (`resolveLinks_append`). Behind names that lead
to a folder, names of nothing can stand (`resolveLinks_nameless`), and the name of an entry of the
folder leads to the entry (`resolveLinks_entry`). Looking at an entry finds what using it finds, or
the link that is there (`resolve_inspect`). -/

namespace PackageAtlas

/-- A name that leads from a folder to itself. -/
def Path.Nameless (name : Bytes) : Prop :=
  name = [] ∨ name = dot

namespace FileTree

variable (tree : FileTree)

/-! ## Walking -/

/-- What a walk that stopped does when there are more names. -/
def onward (purpose : Purpose) (more : List Bytes) : Stop → Except PathError Stop
  | .arrived location => tree.walk purpose location more
  | .link folder target rest => .ok (.link folder target (rest ++ more))

/-- Whether names before `more` are gone through as for use: there are names that decide where the
path ends. -/
def Passes (purpose : Purpose) (more : List Bytes) : Prop :=
  purpose = .use ∨ purpose = .inspect ∧ more ≠ [] ∨ purpose = .create ∧ more ≠ [] ∧ more ≠ [[]]

theorem Passes.front {purpose : Purpose} {more : List Bytes} (h : Passes purpose more)
    (front : List Bytes) : purpose ≠ .spell ∧ ¬ (purpose = .inspect ∧ front ++ more = []) ∧
      ¬ (purpose = .create ∧ front ++ more = [[]]) ∧
      ¬ (purpose = .create ∧ front ++ more = []) := by
  rcases h with rfl | ⟨rfl, hne⟩ | ⟨rfl, hne, hslash⟩
  · simp
  · simp [hne]
  · refine ⟨nofun, nofun, fun h => ?_, fun h => hne (List.append_eq_nil_iff.1 h.2).2⟩
    rcases List.append_eq_singleton_iff.1 h.2 with ⟨-, hmore⟩ | ⟨-, hmore⟩
    · exact hslash hmore
    · exact hne hmore

theorem walk_of_not_folder (purpose : Purpose) {here : Location}
    (h : ¬ ∃ entries, tree.at? here = some (.folder entries)) (name : Bytes) (rest : List Bytes) :
    tree.walk purpose here (name :: rest) = .error .notAFolder := by
  rw [walk]
  split
  · next entries hhere => exact absurd ⟨entries, hhere⟩ h
  · rfl

theorem walk_append {purpose : Purpose} {more : List Bytes} (h : Passes purpose more)
    (front : List Bytes) : ∀ here : Location, tree.walk purpose here (front ++ more)
      = (tree.walk .use here front).bind (tree.onward purpose more) := by
  induction front with
  | nil => exact fun here => rfl
  | cons name front ih =>
      intro here
      obtain ⟨hspell, hinspect, hslash, hlast⟩ := h.front front
      rw [List.cons_append]
      by_cases hhere : ∃ entries, tree.at? here = some (.folder entries)
      · obtain ⟨entries, hentries⟩ := hhere
        rw [walk, walk, hentries]
        simp only [ih, hspell, hinspect, hslash, hlast, reduceCtorEq, false_and, if_false]
        split_ifs
        · rfl
        · rfl
        · rfl
        · cases Table.get? name entries with
          | none => rfl
          | some inner => cases inner <;> rfl
      · rw [tree.walk_of_not_folder purpose hhere, tree.walk_of_not_folder .use hhere]
        rfl

theorem at?_concat {here : Location} {entries : List (Bytes × Entry)}
    (hhere : tree.at? here = some (.folder entries)) (name : Bytes) :
    tree.at? (here ++ [name]) = Table.get? name entries := by
  rw [FileTree.at?, Entry.at?_append, ← FileTree.at?, hhere, Option.bind_some,
    Entry.at?_folder_cons]
  simp only [Entry.at?_nil, Option.bind_fun_some]

theorem at?_entry {here : Location} {entries : List (Bytes × Entry)} {name : Bytes} {entry : Entry}
    (hhere : tree.at? here = some (.folder entries)) (hget : Table.get? name entries = some entry) :
    tree.at? (here ++ [name]) = some entry :=
  (tree.at?_concat hhere name).trans hget

/-- Looking at an entry differs from using it only where a link is the last on the way. -/
theorem walk_inspect (names : List Bytes) : ∀ here : Location,
    tree.walk .inspect here names = tree.walk .use here names ∨
      ∃ location target, tree.walk .inspect here names = .ok (.arrived location) ∧
        tree.at? location = some (.link target) := by
  induction names with
  | nil => exact fun here => Or.inl rfl
  | cons name rest ih =>
      intro here
      by_cases hhere : ∃ entries, tree.at? here = some (.folder entries)
      · obtain ⟨entries, hentries⟩ := hhere
        rw [walk, walk, hentries]
        simp only [reduceCtorEq, false_and, if_false, true_and]
        by_cases hnameless : name = [] ∨ name = Path.dot
        · simpa only [if_pos hnameless] using ih here
        by_cases hdotDot : name = Path.dotDot
        · simpa only [if_neg hnameless, if_pos hdotDot] using ih here.dropLast
        by_cases hlength : nameLimit < name.length
        · simp only [if_neg hnameless, if_neg hdotDot, if_pos hlength, true_or]
        simp only [if_neg hnameless, if_neg hdotDot, if_neg hlength]
        cases hget : Table.get? name entries with
        | none => exact Or.inl rfl
        | some inner =>
            cases inner with
            | file content => exact ih (here ++ [name])
            | folder inner => exact ih (here ++ [name])
            | link target =>
                by_cases hrest : rest = []
                · exact Or.inr ⟨here ++ [name], target, by simp only [hrest, if_true],
                    tree.at?_entry hentries hget⟩
                · exact Or.inl (by simp only [hrest, if_false])
      · exact Or.inl (by
          rw [tree.walk_of_not_folder .inspect hhere, tree.walk_of_not_folder .use hhere])

/-! ## Resolving -/

/-- The location at the end of names, for use, and how many of the links are left. -/
def resolveLinks (tree : FileTree) : Nat → Location → List Bytes → Except PathError (Location × Nat)
  | links, here, names =>
    match tree.walk .use here names with
    | .error e => .error e
    | .ok (.arrived location) => .ok (location, links)
    | .ok (.link folder target rest) =>
      match links with
      | 0 => .error .tooManyLinks
      | more + 1 => resolveLinks tree more (startOf folder target) (Path.names target ++ rest)

/-- What `resolveLinks` makes of where a walk stopped. -/
def goOn (links : Nat) : Stop → Except PathError (Location × Nat)
  | .arrived location => .ok (location, links)
  | .link folder target rest =>
    match links with
    | 0 => .error .tooManyLinks
    | more + 1 => tree.resolveLinks more (startOf folder target) (Path.names target ++ rest)

theorem resolveLinks_eq (links : Nat) (here : Location) (names : List Bytes) :
    tree.resolveLinks links here names = (tree.walk .use here names).bind (tree.goOn links) := by
  rw [resolveLinks]
  cases tree.walk .use here names with
  | error e => rfl
  | ok stop => cases stop <;> rfl

theorem resolveFrom_use (links : Nat) (here : Location) (names : List Bytes) :
    tree.resolveFrom .use links here names = (tree.resolveLinks links here names).map Prod.fst := by
  rw [resolveFrom, resolveLinks_eq]
  cases tree.walk .use here names with
  | error e => rfl
  | ok stop =>
      cases stop with
      | arrived location => rfl
      | link folder target rest =>
          cases links with
          | zero => rfl
          | succ links => exact resolveFrom_use links _ _

/-- **Resolving can be interrupted between any two names.** -/
theorem resolveLinks_append (links : Nat) (here : Location) (front more : List Bytes) :
    tree.resolveLinks links here (front ++ more)
      = (tree.resolveLinks links here front).bind fun stop =>
          tree.resolveLinks stop.2 stop.1 more := by
  rw [resolveLinks_eq, resolveLinks_eq, tree.walk_append (Or.inl rfl)]
  cases tree.walk .use here front with
  | error e => rfl
  | ok stop =>
      cases stop with
      | arrived location => exact (tree.resolveLinks_eq links location more).symm
      | link folder target rest =>
          cases links with
          | zero => rfl
          | succ links =>
              simp only [Except.bind, onward, goOn, ← List.append_assoc]
              exact resolveLinks_append links _ _ _

theorem resolveFrom_append {purpose : Purpose} {more : List Bytes} (h : Passes purpose more)
    (links : Nat) (here : Location) (front : List Bytes) :
    tree.resolveFrom purpose links here (front ++ more)
      = (tree.resolveLinks links here front).bind fun stop =>
          tree.resolveFrom purpose stop.2 stop.1 more := by
  rw [resolveFrom, resolveLinks_eq, tree.walk_append h]
  cases tree.walk .use here front with
  | error e => rfl
  | ok stop =>
      cases stop with
      | arrived location =>
          simp only [Except.bind, onward, goOn]
          rw [← resolveFrom]
      | link folder target rest =>
          cases links with
          | zero => rfl
          | succ links =>
              simp only [Except.bind, onward, goOn, ← List.append_assoc]
              exact resolveFrom_append h links _ _

theorem exists_of_resolveLinks_append {links : Nat} {here : Location} {front more : List Bytes}
    {stop : Location × Nat} (h : tree.resolveLinks links here (front ++ more) = .ok stop) :
    ∃ between, tree.resolveLinks links here front = .ok between ∧
      tree.resolveLinks between.2 between.1 more = .ok stop := by
  rw [resolveLinks_append] at h
  cases hfront : tree.resolveLinks links here front with
  | error e => simp [hfront, Except.bind] at h
  | ok between =>
      rw [hfront] at h
      exact ⟨between, rfl, h⟩

/-- Looking at an entry finds what using it finds, or a link. -/
theorem resolveFrom_inspect {links : Nat} {here : Location} {names : List Bytes}
    {location : Location} (h : tree.resolveFrom .use links here names = .ok location) :
    ∃ seen, tree.resolveFrom .inspect links here names = .ok seen ∧
      (seen = location ∨ ∃ target, tree.at? seen = some (.link target)) := by
  rcases tree.walk_inspect names here with heq | ⟨seen, target, hwalk, hseen⟩
  · rw [resolveFrom] at h ⊢
    rw [heq]
    cases hwalk : tree.walk .use here names with
    | error e => simp [hwalk] at h
    | ok stop =>
        rw [hwalk] at h
        cases stop with
        | arrived arrival => exact ⟨location, h, Or.inl rfl⟩
        | link folder target rest =>
            cases links with
            | zero => exact absurd h (by simp)
            | succ links => exact resolveFrom_inspect h
  · exact ⟨seen, by rw [resolveFrom, hwalk], Or.inr ⟨target, hseen⟩⟩

/-! ## Names in a folder -/

variable {tree} {links : Nat} {here : Location} {entries : List (Bytes × Entry)}

/-- Names of nothing lead from a folder to itself. -/
theorem resolveLinks_nameless (hhere : tree.at? here = some (.folder entries)) {names : List Bytes}
    (h : ∀ name ∈ names, Path.Nameless name) :
    tree.resolveLinks links here names = .ok (here, links) := by
  have hwalk : tree.walk .use here names = .ok (.arrived here) := by
    induction names with
    | nil => rfl
    | cons name rest ih =>
        have hname : name = [] ∨ name = Path.dot := h name (List.mem_cons_self ..)
        rw [walk, hhere]
        simp only [if_pos hname]
        exact ih fun other hother => h other (List.mem_cons_of_mem _ hother)
  rw [resolveLinks_eq, hwalk]
  rfl

/-- Names of nothing lead nowhere else. -/
theorem eq_of_resolveLinks_nameless {names : List Bytes}
    (h : ∀ name ∈ names, Path.Nameless name) {stop : Location × Nat}
    (hstop : tree.resolveLinks links here names = .ok stop) : stop = (here, links) := by
  cases names with
  | nil =>
      rw [resolveLinks_eq] at hstop
      exact (Except.ok.inj hstop).symm
  | cons name rest =>
      by_cases hhere : ∃ entries, tree.at? here = some (.folder entries)
      · obtain ⟨entries, hentries⟩ := hhere
        rw [resolveLinks_nameless hentries h] at hstop
        exact (Except.ok.inj hstop).symm
      · rw [resolveLinks_eq, tree.walk_of_not_folder .use hhere] at hstop
        exact absurd hstop (by simp [Except.bind])

/-- The name of an entry that is no link leads to it. -/
theorem resolveLinks_entry (hhere : tree.at? here = some (.folder entries)) {name : Bytes}
    (hname : LegalName name) {entry : Entry} (hget : Table.get? name entries = some entry)
    (hlink : ∀ target, entry ≠ .link target) :
    tree.resolveLinks links here [name] = .ok (here ++ [name], links) := by
  have hwalk : tree.walk .use here [name] = .ok (.arrived (here ++ [name])) := by
    rw [walk, hhere]
    simp only [hname.ne_nil, hname.ne_dot, hname.ne_dotDot, Nat.not_lt.2 hname.length_le,
      reduceCtorEq, or_self, false_and, if_false, hget]
    cases entry with
    | file content => rfl
    | folder inner => rfl
    | link target => exact absurd rfl (hlink target)
  rw [resolveLinks_eq, hwalk]
  rfl

end FileTree

end PackageAtlas
