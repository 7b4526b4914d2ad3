set_option autoImplicit false

/-! # Sorted tables and key sets

A table is a list of keys with their values, in strictly increasing order of the keys; a key set is
such a list of keys alone. `put` and `add` keep the order, so two tables with the same bindings are
the same list. On texts the order is that of the code points, on byte strings that of the bytes. -/

namespace PackageAtlas

/-- Values under keys, sorted by key. -/
abbrev Table (κ α : Type) := List (κ × α)

variable {κ α : Type} [DecidableEq κ] [LT κ] [DecidableLT κ]

namespace Table

/-- The value under `key`. -/
def get? (key : κ) : Table κ α → Option α
  | [] => none
  | (k, v) :: rest => if key = k then some v else get? key rest

/-- The table with `value` under `key`, in place of what was there. -/
def put (key : κ) (value : α) : Table κ α → Table κ α
  | [] => [(key, value)]
  | (k, v) :: rest =>
    if key = k then (key, value) :: rest
    else if key < k then (key, value) :: (k, v) :: rest
    else (k, v) :: put key value rest

end Table

/-- Keys, sorted and without repetition. -/
abbrev KeySet (κ : Type) := List κ

/-- The key set with `key` in it. -/
def KeySet.add (key : κ) : KeySet κ → KeySet κ
  | [] => [key]
  | k :: rest =>
    if key = k then k :: rest
    else if key < k then key :: k :: rest
    else k :: add key rest

end PackageAtlas
