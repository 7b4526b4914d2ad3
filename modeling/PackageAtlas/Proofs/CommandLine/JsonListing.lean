import Mathlib.Data.List.Basic
import PackageAtlas.CommandLine.Console
import PackageAtlas.CommandLine.Run
import PackageAtlas.Proofs.Json.Layouts

set_option autoImplicit false

/-! # What a scan lists can be read again

A record is found in any object that has its three members, in whatever order and among whatever
others (`ofMembers_of_lastOf?`). With both layouts of JSON read back, the text of a record gives the
record again, and the listing of a scan gives all records of the scan in their order
(`listing_decodes`). -/

namespace PackageAtlas

namespace Record

/-! ## Records from objects -/

theorem textsOfItems_map_string (texts : List Text) :
    textsOfItems (texts.map .string) = .ok texts := by
  induction texts with
  | nil => rfl
  | cons t texts ih =>
      rw [List.map_cons, textsOfItems, ih]
      rfl

theorem ofMembers_of_lastOf? {members : List (Text × Json)} {record : Record}
    (hpackage : Json.lastOf? packageField members = some (.string record.package))
    (hclassName : Json.lastOf? classNameField members = some (.string record.className))
    (hdependencies : Json.lastOf? dependenciesField members
      = some (.array (record.dependencies.map .string))) :
    ofMembers members = .ok record := by
  have hread : field? textsOf members dependenciesField = .ok (some record.dependencies) := by
    simp only [field?, hdependencies, textsOf, textsOfItems_map_string]
    rfl
  simp only [ofMembers, hread]
  simp only [field?, hpackage, hclassName]
  rfl

theorem ofJson?_toJson (record : Record) : ofJson? record.toJson = .ok record :=
  ofMembers_of_lastOf? rfl rfl rfl

end Record

namespace CommandLine

open Json (gap_nil gap_singleton parse?_compact parse?_indented)

/-! ## Listings -/

/-- Whether a text is a JSON array of records: one item gives each of them, in their order. -/
def DecodesTo (t : Text) (records : List Record) : Prop :=
  ∃ items, Json.parse? t = some (.array items) ∧ items.map Record.ofJson? = records.map .ok

theorem scanText_decodes (records : List Record) : DecodesTo (scanText true records) records := by
  refine ⟨records.map Record.toJson, ?_, ?_⟩
  · exact parse?_indented 0 (.array (records.map Record.toJson)) (gap_singleton rfl)
  · rw [List.map_map]
    exact List.map_congr_left fun record _ => record.ofJson?_toJson

/-- A scan whose records can be had prints their listing and nothing else. -/
theorem run_scan {tree : FileTree} {environment : Environment} {words : List Bytes}
    {search : SearchOptions} {json : Bool} {records : List Record} (reporter : Reporter)
    (hwords : request words = .ok (.run (.scan search json)))
    (hrecords : (scanRecords tree search.path (searchSettings environment search)).result
      = .ok records) :
    (run reporter tree environment words).1.exitCode = 0 ∧
      (run reporter tree environment words).1.stdout = scanText json records := by
  simp only [run, Reporter.outcome, perform, hwords, execute, prepare, hrecords, Except.map,
    outputFile, deliver, and_self]

/-- **Records are read back from their JSON.** A record is read back from its text in either layout,
whatever characters are in it; the listing of any records, and what a scan prints of those it finds,
is an array that gives the very records, one item for each and in their order. -/
theorem listing_decodes :
    (∀ record : Record,
      (Json.parse? (Json.compact record.toJson)).map Record.ofJson? = some (.ok record) ∧
      (Json.parse? (Json.indented 0 record.toJson)).map Record.ofJson? = some (.ok record)) ∧
    (∀ records : List Record, DecodesTo (scanText true records) records) ∧
    ∀ (reporter : Reporter) (tree : FileTree) (environment : Environment) (words : List Bytes)
      (search : SearchOptions) (records : List Record),
      request words = .ok (.run (.scan search true)) →
      (scanRecords tree search.path (searchSettings environment search)).result = .ok records →
      (run reporter tree environment words).1.exitCode = 0 ∧
      DecodesTo (run reporter tree environment words).1.stdout records := by
  refine ⟨fun record => ⟨?_, ?_⟩, scanText_decodes, ?_⟩
  · rw [parse?_compact, Option.map_some, record.ofJson?_toJson]
  · have hread := parse?_indented 0 record.toJson gap_nil
    rw [List.append_nil] at hread
    rw [hread, Option.map_some, record.ofJson?_toJson]
  · intro reporter tree environment words search records hwords hrecords
    obtain ⟨hexit, hprinted⟩ := run_scan reporter hwords hrecords
    rw [hprinted]
    exact ⟨hexit, scanText_decodes records⟩

/-- A tree with a class that has no imports and one whose names hold quotes, a backslash and control
characters, and which imports one name twice. -/
def archive : FileTree where
  top :=
    [(Utf8.encode "src".toList, .folder
      [(Utf8.encode "A.java".toList, .file []),
        (Utf8.encode "B\"\\.java".toList, .file (Utf8.encode
          "package a\u0001\"b;\nimport c\t\\d;\nimport é\u2028e;\nimport c\t\\d;\n".toList))])]
  here := []

/-- The listing of the two gives them back, the empty array of imports and the full one. -/
theorem listing_decodes_archive :
    let reporter : Reporter := console fun _ => []
    let environment : Environment := fun _ => none
    let words := ["scan".toList, "--json".toList, "src".toList].map Utf8.encode
    let records : List Record :=
      [⟨"UNKNOWN".toList, "A".toList, []⟩,
        ⟨"a\u0001\"b".toList, "B\"\\".toList,
          ["c\t\\d".toList, "é\u2028e".toList, "c\t\\d".toList]⟩]
    request words = .ok (.run (.scan ⟨"src".toList, none, []⟩ true)) ∧
    (scanRecords archive "src".toList
      (searchSettings environment ⟨"src".toList, none, []⟩)).result = .ok records ∧
    (run reporter archive environment words).1.exitCode = 0 ∧
    DecodesTo (run reporter archive environment words).1.stdout records := by
  intro reporter environment words records
  have hwords : request words = .ok (.run (.scan ⟨"src".toList, none, []⟩ true)) := by
    decide +kernel
  have hrecords : (scanRecords archive "src".toList
      (searchSettings environment ⟨"src".toList, none, []⟩)).result = .ok records := by
    decide +kernel
  exact ⟨hwords, hrecords, listing_decodes.2.2 reporter archive environment words _ records hwords
    hrecords⟩

end CommandLine

end PackageAtlas
