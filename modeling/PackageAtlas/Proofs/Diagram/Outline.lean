import Mathlib.Data.List.Infix
import PackageAtlas.Diagram.Body
import PackageAtlas.Proofs.Identifier
import PackageAtlas.Text.Utf8

set_option autoImplicit false

/-! # Reading a body

`Outline.read` goes over the lines of a body from the first to the last and keeps the packages whose
blocks are open. It takes a line only if it has the form and the padding that belong there, and
gives up at the first that has not:

* a package line announces a block, and the next line has to be an opening brace;
* a closing brace ends the innermost block, in which a class must have been read, and has the
  padding of its opening brace;
* the labels of the entries of one block grow in byte order;
* outside all blocks there may be lines that begin with an underscore, those of dependencies.

A label is not escaped and may hold the words that end it, so a label is what stands in front of its
own identifier; there is one such label at most (`Heading.read?_eq_some_iff`). The lemmas
`step_classLine` to `step_edgeLine` say what a reader does at each line of a drawing. -/

namespace PackageAtlas.Diagram

/-- A label and the identifier that stands behind it. -/
structure Heading where
  label : Text
  identifier : Text
  deriving DecidableEq

/-- A package or a class, as the line that declares it shows it. -/
structure Declaration where
  /-- Whether it is a class. -/
  isClass : Bool
  /-- What was read on the package lines of the blocks around it, from the outermost. -/
  around : List Heading
  /-- What is on its own line. -/
  heading : Heading
  deriving DecidableEq

/-- The labels that lead to a declaration, its own at the end. -/
def Declaration.keys (declaration : Declaration) : List Text :=
  declaration.around.map Heading.label ++ [declaration.heading.label]

/-- What a reader knows after some lines of a body. -/
structure Outline where
  /-- What was read on the package lines of the open blocks, from the outermost. -/
  blocks : List Heading := []
  /-- What was read on the line before, if that was a package line. -/
  announced : Option Heading := none
  /-- The label of the last entry so far of the innermost open block. -/
  latest : Option Text := none
  /-- Whether a class was read since the innermost open block was opened. -/
  inhabited : Bool := false
  /-- The packages and classes in the order of their lines. -/
  declarations : List Declaration := []
  /-- The lines of dependencies. -/
  edges : List Text := []
  deriving DecidableEq

/-- What stands after a keyword: a label in quotes, and the identifier that belongs to it. -/
def Heading.read? (keyword : Text) (identify : Text → Text) (t : Text) : Option Heading :=
  ((keyword ++ " \"".toList).isPrefixOf? t).bind fun rest =>
    (rest.inits.find? fun label => rest = label ++ "\" as ".toList ++ identify label).map
      fun label => ⟨label, identify label⟩

namespace Outline

/-- The path of the innermost open block. -/
def path (outline : Outline) : Text :=
  Identifier.pathOf (outline.blocks.map Heading.label)

/-- Whether an entry with the label `label` may come next: it is greater than the one before. -/
def Precedes (outline : Outline) (label : Text) : Prop :=
  ∀ before ∈ outline.latest, Utf8.encode before < Utf8.encode label

instance (outline : Outline) (label : Text) : Decidable (outline.Precedes label) :=
  inferInstanceAs (Decidable (∀ before ∈ outline.latest, _))

/-! ## One line -/

/-- With a class more. -/
def declare (outline : Outline) (heading : Heading) : Outline :=
  { outline with
    latest := some heading.label, inhabited := true,
    declarations := outline.declarations ++ [⟨true, outline.blocks, heading⟩] }

/-- With a package more, whose block is still to be opened. -/
def announce (outline : Outline) (heading : Heading) : Outline :=
  { outline with
    announced := some heading,
    declarations := outline.declarations ++ [⟨false, outline.blocks, heading⟩] }

/-- Inside the block of a package that was announced. -/
def enter (outline : Outline) (heading : Heading) : Outline :=
  { outline with
    blocks := outline.blocks ++ [heading], announced := none, latest := none, inhabited := false }

/-- Outside the block of a package. -/
def leave (outline : Outline) (heading : Heading) : Outline :=
  { outline with blocks := outline.blocks.dropLast, latest := some heading.label }

/-- With the line of a dependency more. -/
def connect (outline : Outline) (line : Text) : Outline :=
  { outline with edges := outline.edges ++ [line] }

/-- After the line of a class or a package, as `next` says: no block is announced, and the label is
in order. -/
def readHeading (next : Outline → Heading → Outline) (outline : Outline) (heading : Heading) :
    Option Outline :=
  if outline.announced = none ∧ outline.Precedes heading.label then some (next outline heading)
  else none

/-- After an opening brace: a block is announced. -/
def readOpen (outline : Outline) : Option Outline :=
  outline.announced.map outline.enter

/-- After a closing brace: a block is open, and a class in it. -/
def readClose (outline : Outline) : Option Outline :=
  if outline.announced = none ∧ outline.inhabited then outline.blocks.getLast?.map outline.leave
  else none

/-- After the line of a dependency: all blocks are closed. -/
def readEdge (outline : Outline) (line : Text) : Option Outline :=
  if outline.announced = none ∧ outline.blocks = [] ∧ line.head? = some '_' then
    some (outline.connect line)
  else none

/-- After a line without its padding that is no closing brace. -/
def readEntry (outline : Outline) (t : Text) : Option Outline :=
  if t = ['{'] then outline.readOpen
  else
    match Heading.read? "class".toList (Identifier.ofClass outline.path) t with
    | some heading => outline.readHeading declare heading
    | none =>
      match Heading.read? "package".toList
          (fun label => Identifier.ofPackage (Identifier.extend outline.path label)) t with
      | some heading => outline.readHeading announce heading
      | none => outline.readEdge t

/-- After one more line, padded with `indent` blanks for each block that is open around it. -/
def step (indent : Nat) (outline : Outline) (line : Text) : Option Outline :=
  let t := line.dropWhile (· = ' ')
  let padding := (line.takeWhile (· = ' ')).length
  let depth := outline.blocks.length
  if t = ['}'] then
    if padding = indent * (depth - 1) then outline.readClose else none
  else
    if padding = indent * depth then outline.readEntry t else none

/-- After more lines of a body. -/
def readFrom (indent : Nat) (lines : List Text) (outline : Outline) : Option Outline :=
  lines.foldlM (step indent) outline

/-- After all lines of a body. -/
def read (indent : Nat) (lines : List Text) : Option Outline :=
  readFrom indent lines {}

end Outline

/-! ## Labels -/

/-- Of the beginnings of a text, the label is the one that has its identifier behind it. -/
theorem find?_inits {identify : Text → Text} (h : Identifier.Follows identify)
    (label between : Text) :
    (label ++ between ++ identify label).inits.find?
      (fun other => label ++ between ++ identify label = other ++ between ++ identify other)
        = some label := by
  have hmem : label ∈ (label ++ between ++ identify label).inits := by
    rw [List.mem_inits, List.append_assoc]
    exact List.prefix_append label _
  obtain ⟨found, hfound⟩ := Option.isSome_iff_exists.1
    (List.find?_isSome (p := fun other =>
      decide (label ++ between ++ identify label = other ++ between ++ identify other)).2
        ⟨label, hmem, decide_eq_true rfl⟩)
  have hlabel : label ++ between ++ identify label = found ++ between ++ identify found := by
    simpa only [decide_eq_true_eq] using List.find?_some hfound
  rw [hfound, h.label_unique hlabel]

theorem declaration_eq (keyword label identifier : Text) :
    declaration keyword label identifier
      = (keyword ++ " \"".toList) ++ (label ++ "\" as ".toList ++ identifier) := by
  simp only [declaration, List.append_assoc]

/-- **A heading is read if and only if it is there.** -/
theorem Heading.read?_eq_some_iff {identify : Text → Text} (h : Identifier.Follows identify)
    (keyword t : Text) (heading : Heading) : Heading.read? keyword identify t = some heading ↔
      t = declaration keyword heading.label heading.identifier
        ∧ heading.identifier = identify heading.label := by
  simp only [Heading.read?, declaration_eq, Option.bind_eq_some_iff,
    List.isPrefixOf?_eq_some_iff_append_eq, Option.map_eq_some_iff]
  constructor
  · rintro ⟨rest, rfl, label, hfind, rfl⟩
    have hrest : rest = label ++ "\" as ".toList ++ identify label := by
      simpa only [decide_eq_true_eq] using List.find?_some hfind
    exact ⟨congrArg _ hrest, rfl⟩
  · rintro ⟨rfl, hidentifier⟩
    refine ⟨_, rfl, heading.label, ?_, by rw [← hidentifier]⟩
    rw [hidentifier]
    exact find?_inits h heading.label _

/-- Where another letter begins the text, the keyword is not there. -/
theorem Heading.read?_eq_none {keyword t : Text} (identify : Text → Text) (hne : keyword ≠ [])
    (h : t.head? ≠ keyword.head?) : Heading.read? keyword identify t = none := by
  have hprefix : (keyword ++ " \"".toList).isPrefixOf? t = none := by
    refine Option.eq_none_iff_forall_ne_some.2 fun more hmore => h ?_
    rw [← List.isPrefixOf?_eq_some_iff_append_eq.1 hmore, List.append_assoc,
      List.head?_append_of_ne_nil _ hne]
  rw [Heading.read?, hprefix, Option.bind_none]

/-! ## The lines of a drawing -/

namespace Outline

/-- A padded line is taken apart into its padding and the rest. -/
theorem step_pad (indent depth : Nat) (outline : Outline) {t : Text} (ht : t.head? ≠ some ' ') :
    step indent outline (pad indent depth ++ t)
      = if t = ['}'] then
          if indent * depth = indent * (outline.blocks.length - 1) then outline.readClose else none
        else
          if indent * depth = indent * outline.blocks.length then outline.readEntry t
          else none := by
  have hblank : ∀ c ∈ pad indent depth, decide (c = ' ') = true := fun c hc =>
    decide_eq_true (List.eq_of_mem_replicate hc)
  have hdrop : t.dropWhile (· = ' ') = t := by
    cases t with
    | nil => rfl
    | cons c rest => exact List.dropWhile_cons_of_neg (by simpa using ht)
  have htake : t.takeWhile (· = ' ') = [] := by
    cases t with
    | nil => rfl
    | cons c rest => exact List.takeWhile_cons_of_neg (by simpa using ht)
  have hpadding : ((pad indent depth ++ t).takeWhile (· = ' ')).length = indent * depth := by
    rw [List.takeWhile_append_of_pos hblank, htake, List.append_nil, pad, List.length_replicate]
  have hrest : (pad indent depth ++ t).dropWhile (· = ' ') = t := by
    rw [List.dropWhile_append_of_pos hblank, hdrop]
  simp only [step, hpadding, hrest]

variable {indent : Nat} {outline : Outline}

theorem step_openLine {heading : Heading} (h : outline.announced = some heading) :
    step indent outline (openLine indent outline.blocks.length)
      = some (outline.enter heading) := by
  rw [openLine, step_pad _ _ _ (by decide), if_neg (by decide), if_pos rfl, readEntry, if_pos rfl,
    readOpen, h, Option.map_some]

theorem step_closeLine {around : List Heading} {heading : Heading}
    (hblocks : outline.blocks = around ++ [heading]) (hannounced : outline.announced = none)
    (hinhabited : outline.inhabited = true) :
    step indent outline (closeLine indent around.length)
      = some (outline.leave heading) := by
  have hdepth : outline.blocks.length - 1 = around.length := by simp [hblocks]
  rw [closeLine, step_pad _ _ _ (by decide), if_pos rfl, hdepth, if_pos rfl, readClose,
    if_pos ⟨hannounced, hinhabited⟩, hblocks, List.getLast?_concat, Option.map_some]

theorem step_classLine {key : Text} {record : Record} (hkey : key = record.className)
    (hannounced : outline.announced = none) (hprecedes : outline.Precedes key) :
    step indent outline (classLine indent outline.blocks.length outline.path key record)
      = some (outline.declare ⟨key, Identifier.ofClass outline.path key⟩) := by
  subst hkey
  have hread := (Heading.read?_eq_some_iff (Identifier.follows_ofClass outline.path)
    "class".toList _ ⟨record.className, Identifier.ofClass outline.path record.className⟩).2
      ⟨rfl, rfl⟩
  rw [classLine, step_pad _ _ _ (by simp [declaration]), if_neg (by simp [declaration]), if_pos rfl,
    readEntry, if_neg (by simp [declaration]), hread]
  exact if_pos ⟨hannounced, hprecedes⟩

theorem step_packageLine {key : Text} (hannounced : outline.announced = none)
    (hprecedes : outline.Precedes key) :
    step indent outline
        (packageLine indent outline.blocks.length (Identifier.extend outline.path key) key)
      = some (outline.announce
          ⟨key, Identifier.ofPackage (Identifier.extend outline.path key)⟩) := by
  have hread := (Heading.read?_eq_some_iff (Identifier.follows_ofPackage outline.path)
    "package".toList _ ⟨key, Identifier.ofPackage (Identifier.extend outline.path key)⟩).2
      ⟨rfl, rfl⟩
  have hclass : Heading.read? "class".toList (Identifier.ofClass outline.path)
      (declaration "package".toList key
        (Identifier.ofPackage (Identifier.extend outline.path key))) = none :=
    Heading.read?_eq_none _ (by decide) (by simp [declaration])
  rw [packageLine, step_pad _ _ _ (by simp [declaration]), if_neg (by simp [declaration]),
    if_pos rfl, readEntry, if_neg (by simp [declaration]), hclass, hread]
  exact if_pos ⟨hannounced, hprecedes⟩

theorem step_edgeLine (hannounced : outline.announced = none) (hblocks : outline.blocks = [])
    (source target : Text) :
    step indent outline (edgeLine source target)
      = some (outline.connect (edgeLine source target)) := by
  have hhead : (edgeLine source target).head? = some '_' := by
    obtain ⟨rest, hrest⟩ := List.head?_eq_some_iff.1 (Identifier.head?_ofPackage source)
    rw [edgeLine, hrest]
    rfl
  have hne : ∀ t : Text, t.head? ≠ some '_' → edgeLine source target ≠ t := by
    rintro t ht rfl
    exact ht hhead
  have hread : outline.readEntry (edgeLine source target)
      = outline.readEdge (edgeLine source target) := by
    rw [readEntry, if_neg (hne _ (by decide)),
      Heading.read?_eq_none _ (by decide) (by rw [hhead]; decide),
      Heading.read?_eq_none _ (by decide) (by rw [hhead]; decide)]
  have hstep := step_pad indent 0 outline (t := edgeLine source target) (by rw [hhead]; decide)
  rw [if_neg (hne _ (by decide)), if_pos (by rw [hblocks]; rfl), hread] at hstep
  exact hstep.trans (if_pos ⟨hannounced, hblocks, hhead⟩)

end Outline

end PackageAtlas.Diagram
