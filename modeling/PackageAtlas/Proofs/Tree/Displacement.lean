import PackageAtlas.Namespace
import PackageAtlas.Proofs.Tree.Graft

set_option autoImplicit false

/-! # What a grafted class displaces

`Tree.warnings` tells what stands in the way of a class, read off the tree alone, and
`Tree.displaced` lists the bindings that it displaces. `displaced_cases` ties the two together:
either nothing is in the way, or exactly one warning names all that goes. -/

namespace PackageAtlas.Tree

/-- The warnings that a class under `key` at the end of `segments` gives rise to. -/
def warnings (package : Text) : List Text → Text → List (Text × Tree) → List Warning
  | [], key, es =>
    match Table.get? key es with
    | none => []
    | some (.cls old) => [.classAtKey key old.qualifiedName]
    | some (.package _) => [.packageAtKey key]
  | segment :: rest, key, es =>
    match Table.get? segment es with
    | none => []
    | some (.cls _) => [.classOnTheWay segment package]
    | some (.package inner) => warnings package rest key inner

theorem warnings_of_empty (package : Text) (segments : List Text) (key : Text) :
    warnings package segments key [] = [] := by
  cases segments <;> simp [warnings, Table.get?]

/-- The bindings whose paths are comparable with `path`. -/
def displaced (path : List Text) (bs : List (List Text × Record)) : List (List Text × Record) :=
  bs.filter fun b => Comparable b.1 path

theorem mem_displaced {path : List Text} {bs : List (List Text × Record)}
    {b : List Text × Record} : b ∈ displaced path bs ↔ b ∈ bs ∧ Comparable b.1 path := by
  simp [displaced]

/-- Only the entry under the first key of a path is concerned. -/
theorem displaced_cons (key : Text) (path : List Text) {es : List (Text × Tree)}
    (hs : Table.Sorted es) : displaced (key :: path) (bindingsOfEntries es)
      = ((Table.get? key es).map fun tree =>
          (displaced path tree.bindings).map (under key)).getD [] := by
  have hhead : displaced (key :: path) (bindingsOfEntries es)
      = displaced (key :: path)
          ((bindingsOfEntries es).filter fun b => b.1.head? = some key) := by
    rw [displaced, displaced, List.filter_filter]
    refine List.filter_congr fun b hb => ?_
    obtain ⟨k, q, hkq⟩ := List.exists_cons_of_ne_nil (path_ne_nil_of_mem hb)
    simp only [hkq, comparable_cons_cons, List.head?_cons, Option.some.injEq]
    by_cases hk : k = key <;> simp [hk]
  rw [hhead, filter_head?_bindingsOfEntries key hs]
  cases Table.get? key es with
  | none => rfl
  | some tree => simp [displaced, List.filter_map, under, Function.comp_def]

theorem displaced_nil (bs : List (List Text × Record)) : displaced [] bs = bs := by
  simp [displaced, (comparable_nil _).symm]

/-- What a class under `key` at the end of `segments` finds in its way among the entries `es`: the
bindings it displaces, and the warnings. -/
inductive Obstacle (package : Text) (segments : List Text) (key : Text) (es : List (Text × Tree)) :
    List (List Text × Record) → List Warning → Prop
  | nothing : Obstacle package segments key es [] []
  | classOnTheWay (front : List Text) (segment : Text) (old : Record)
      (hfront : front ++ [segment] <+: segments) :
      Obstacle package segments key es [(front ++ [segment], old)]
        [.classOnTheWay segment package]
  | classAtKey (old : Record) : Obstacle package segments key es [(segments ++ [key], old)]
      [.classAtKey key old.qualifiedName]
  | packageAtKey (inner : List (Text × Tree))
      (hat : at? (segments ++ [key]) (.package es) = some (.package inner)) :
      Obstacle package segments key es
        ((bindingsOfEntries inner).map fun b => (segments ++ key :: b.1, b.2))
        [.packageAtKey key]

/-- An obstacle below the package under `segment` is one seen from above. -/
theorem Obstacle.under {package : Text} {segments : List Text} {key segment : Text}
    {es inner : List (Text × Tree)} {lost : List (List Text × Record)} {ws : List Warning}
    (hget : Table.get? segment es = some (.package inner))
    (h : Obstacle package segments key inner lost ws) :
    Obstacle package (segment :: segments) key es (lost.map (under segment)) ws := by
  cases h with
  | nothing => exact .nothing
  | classOnTheWay front last old hfront =>
      exact .classOnTheWay (segment :: front) last old (List.cons_prefix_cons.2 ⟨rfl, hfront⟩)
  | classAtKey old => exact .classAtKey old
  | packageAtKey deep hat =>
      have hat' : at? (segment :: segments ++ [key]) (.package es) = some (.package deep) := by
        rw [List.cons_append, at?, entries, hget]
        exact hat
      rw [List.map_map]
      exact .packageAtKey deep hat'

/-- **Exactly one warning names all that is displaced.** -/
theorem displaced_cases (package : Text) (segments : List Text) (key : Text) :
    ∀ {es : List (Text × Tree)}, ProperEntries es →
      Obstacle package segments key es
        (displaced (segments ++ [key]) (bindingsOfEntries es))
        (warnings package segments key es) := by
  induction segments with
  | nil =>
      intro es h
      rw [List.nil_append, displaced_cons key [] h.sorted, warnings]
      cases hget : Table.get? key es with
      | none => exact .nothing
      | some tree =>
          rw [Option.map_some, Option.getD_some, displaced_nil]
          cases tree with
          | cls old =>
              rw [bindings_cls]
              exact .classAtKey old
          | package inner =>
              rw [bindings_package]
              exact .packageAtKey inner (by simp [at?, entries, hget])
  | cons segment rest ih =>
      intro es h
      rw [List.cons_append, displaced_cons segment _ h.sorted, warnings]
      cases hget : Table.get? segment es with
      | none => exact .nothing
      | some tree =>
          have hproper := h.proper (Table.mem_of_get? hget)
          rw [Option.map_some, Option.getD_some]
          cases tree with
          | cls old =>
              -- whatever is left of the path, it goes on from the class
              have hlost : displaced (rest ++ [key]) (Tree.cls old).bindings = [([], old)] := by
                simp [displaced, comparable_nil]
              rw [hlost]
              exact .classOnTheWay [] segment old (by simp)
          | package inner =>
              rw [bindings_package]
              exact (ih ((proper_package inner).1 hproper).2).under hget

end PackageAtlas.Tree
