import PackageAtlas.Diagram.Body
import PackageAtlas.Text.Utf8

set_option autoImplicit false

/-! # Documents and their destinations

A document is a body between a first and a last line, with a title line if the layout has one. It
is written to a `Destination`, which takes what is handed to it in pieces of its own choice and may
have room for only so many bytes. `Destination.writeAll` hands over the rest of what was not taken
until all is taken or nothing is; `Document.write` does so line by line and stops at the first
failure. -/

namespace PackageAtlas

namespace Document

/-- The lines of the document around a body. -/
def lines (layout : Layout) (body : List Text) : List Text :=
  ["@startuml".toList] ++ (layout.title.map fun title => "title ".toList ++ title).toList
    ++ body ++ ["@enduml".toList]

/-- The document as one text; every line is ended by a newline. -/
def text (layout : Layout) (body : List Text) : Text :=
  (lines layout body).flatMap fun line => line ++ ['\n']

end Document

/-- Why a destination took nothing. -/
inductive WriteFailure where
  /-- It refused with an error of its own. -/
  | closed
  /-- It took nothing and reported no error. -/
  | tookNothing
  deriving DecidableEq

/-- The failure in words. -/
def WriteFailure.message : WriteFailure → Text
  | .closed => "destination closed".toList
  | .tookNothing => "failed to write whole buffer".toList

/-- Where bytes are written to. -/
structure Destination where
  /-- What it holds so far. -/
  written : Bytes := []
  /-- The bytes there is room for in all; without a number, for any. -/
  capacity : Option Nat := none
  /-- How many bytes it takes at once, and at least one, when it holds a number of them. -/
  portion : Nat → Nat
  /-- What it reports when there is no room. -/
  failure : WriteFailure := .closed

namespace Destination

/-- How many of `n` bytes handed over are taken. -/
def taken (destination : Destination) (n : Nat) : Nat :=
  let held := destination.written.length
  let offered := min n (max 1 (destination.portion held))
  match destination.capacity with
  | none => offered
  | some capacity => min offered (capacity - held)

/-- Hands over `bytes`, then what was left of them, at most `rounds` times. -/
def writeRounds : Nat → Bytes → Destination → Destination × Option WriteFailure
  | 0, _, destination => (destination, none)
  | _ + 1, [], destination => (destination, none)
  | rounds + 1, bytes, destination =>
    let count := destination.taken bytes.length
    if count = 0 then (destination, some destination.failure)
    else
      writeRounds rounds (bytes.drop count)
        { destination with written := destination.written ++ bytes.take count }

/-- Hands over `bytes` until all are taken. Each round takes a byte or ends the writing. -/
def writeAll (bytes : Bytes) (destination : Destination) : Destination × Option WriteFailure :=
  writeRounds bytes.length bytes destination

/-- Hands over one byte string after the other, to the first failure. -/
def writeEach : List Bytes → Destination → Destination × Option WriteFailure
  | [], destination => (destination, none)
  | bytes :: rest, destination =>
    match destination.writeAll bytes with
    | (next, none) => writeEach rest next
    | (next, some failure) => (next, some failure)

end Destination

/-- Writes the document around a body, line by line. -/
def Document.write (layout : Layout) (body : List Text) (destination : Destination) :
    Destination × Option WriteFailure :=
  destination.writeEach ((Document.lines layout body).map fun line => Utf8.encode (line ++ ['\n']))

end PackageAtlas
