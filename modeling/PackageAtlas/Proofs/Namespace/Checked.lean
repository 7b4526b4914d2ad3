import PackageAtlas.Proofs.Namespace.Arena

set_option autoImplicit false

/-! # Insertions that check every number

`Namespace.insert?` inserts a record as `Namespace.insert` does, but gives up where a number has no
node or where the node to be given an entry is not a package. In a sound namespace it never gives up
(`insert?_eq_some`), so the defaults of `insert` for these cases are never used. -/

namespace PackageAtlas.Namespace

/-- The entries of the node `id`, which has to be a package. -/
def entries? (ns : Namespace) (id : NodeId) : Option (Table Text NodeId) :=
  match ns.node? id with
  | some (.package es) => some es
  | _ => none

/-- `attach`, with `parent` read after the new node was added. -/
def attach? (ns : Namespace) (parent : NodeId) (key : Text) (node : Node) : Option Namespace :=
  let grown : Namespace := ⟨ns.nodes.push node⟩
  (grown.entries? parent).map fun es =>
    ⟨grown.nodes.setIfInBounds parent (.package (Table.put key ns.nodes.size es))⟩

/-- `openPackage`, with all nodes it looks at read by their numbers. -/
def openPackage? (ns : Namespace) (package : Text) (parent : NodeId) (segment : Text) :
    Option (Namespace × NodeId × List Warning) :=
  (ns.node? parent).bind fun _ =>
    match ns.child? parent segment with
    | none => (ns.attach? parent segment (.package [])).map fun grown => (grown, ns.nodes.size, [])
    | some id => (ns.node? id).bind fun
      | .package _ => some (ns, id, [])
      | .cls _ => (ns.attach? parent segment (.package [])).map fun grown =>
          (grown, ns.nodes.size, [.classOnTheWay segment package])

/-- `openPath`, step by step with `openPackage?`. -/
def openPath? (package : Text) :
    List Text → Namespace → NodeId → Option (Namespace × NodeId × List Warning)
  | [], ns, parent => some (ns, parent, [])
  | segment :: rest, ns, parent =>
    (ns.openPackage? package parent segment).bind fun step =>
      (openPath? package rest step.1 step.2.1).map fun last =>
        (last.1, last.2.1, step.2.2 ++ last.2.2)

/-- The warning of a node that stood under `key`. -/
def warningOf (key : Text) : Node → Warning
  | .cls old => .classAtKey key old.qualifiedName
  | .package _ => .packageAtKey key

/-- `insert`, with every node read by its number; what was displaced is read at the end. -/
def insert? (ns : Namespace) (record : Record) : Option (Namespace × List Warning) :=
  (openPath? record.package record.segments ns root).bind fun home =>
    (home.1.attach? home.2.1 record.className (.cls record)).bind fun grown =>
      match home.1.child? home.2.1 record.className with
      | none => some (grown, home.2.2)
      | some previous => (grown.node? previous).map fun node =>
          (grown, home.2.2 ++ [warningOf record.className node])

variable {ns : Namespace} {home : NodeId}

theorem attach?_eq_some (h : SoundUpTo ns home) (key : Text) (node : Node) :
    ns.attach? home key node = some (ns.attach home key node) := by
  obtain ⟨es, hes⟩ := h.home_package
  have hgrown : (⟨ns.nodes.push node⟩ : Namespace).node? home = some (.package es) := by
    rw [node?, Array.getElem?_push, if_neg (Nat.ne_of_lt h.home_lt_size)]
    exact hes
  simp only [attach?, entries?, hgrown, Option.map_some, attach, entries_of_node? hes]

theorem openPackage?_eq_some (h : SoundUpTo ns home) (package segment : Text) :
    ns.openPackage? package home segment = some (ns.openPackage package home segment) := by
  obtain ⟨es, hes⟩ := h.home_package
  rw [openPackage?, hes, Option.bind_some]
  rcases h.openPackage_cases package segment with
    ⟨id, inner, hmem, hid, hstep⟩ | ⟨hnone, hstep⟩ | ⟨id, old, hmem, hid, hstep⟩
  · rw [h.child?_eq_some_iff.2 hmem, hstep]
    simp only [hid, Option.bind_some]
  · rw [hnone, hstep]
    simp only [attach?_eq_some h, Option.map_some]
  · rw [h.child?_eq_some_iff.2 hmem, hstep]
    simp only [hid, Option.bind_some, attach?_eq_some h, Option.map_some]

theorem openPath?_eq_some (package : Text) (segments : List Text) :
    ∀ {ns : Namespace} {home : NodeId}, SoundUpTo ns home →
      (∀ segment ∈ segments, '.' ∉ segment) →
      openPath? package segments ns home = some (openPath package segments ns home) ∧
        SoundUpTo (openPath package segments ns home).1
          (openPath package segments ns home).2.1 := by
  induction segments with
  | nil => exact fun h _ => ⟨rfl, h⟩
  | cons segment rest ih =>
      intro ns home h hdot
      obtain ⟨hsegment, hrest⟩ := List.forall_mem_cons.1 hdot
      have hopen := h.openPackage package hsegment
      obtain ⟨hlater, hsound⟩ := ih hopen hrest
      refine ⟨?_, hsound⟩
      rw [openPath?, openPackage?_eq_some h, Option.bind_some, hlater, Option.map_some]
      rfl

/-- **In a sound namespace every number an insertion meets has a node of the right kind.** -/
theorem insert?_eq_some (h : SoundUpTo ns root) (record : Record) :
    ns.insert? record = some (ns.insert record) := by
  obtain ⟨hpath, hsound⟩ :=
    openPath?_eq_some record.package record.segments h record.dot_not_mem_segment
  rw [insert?, hpath, Option.bind_some, attach?_eq_some hsound, Option.bind_some, Namespace.insert,
    displacedAt]
  generalize openPath record.package record.segments ns root = path at hsound ⊢
  cases hchild : path.1.child? path.2.1 record.className with
  | none => simp
  | some previous =>
      have hmem := hsound.child?_eq_some_iff.1 hchild
      have hlt := hsound.child_lt_size hmem
      obtain ⟨node, hnode⟩ := exists_node?_of_lt_size hlt
      have hne := Nat.ne_of_gt (hsound.parent_lt_child hmem)
      simp only [node?_attach_of_lt _ _ _ _ hsound.home_lt_size hlt hne, hnode, Option.map_some,
        Option.bind_some]
      cases node <;> rfl

end PackageAtlas.Namespace
