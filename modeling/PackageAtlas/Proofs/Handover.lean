import PackageAtlas.Proofs.Destination

set_option autoImplicit false

/-! # Handing over to a destination

A `Destination` decides by what it holds how much it takes at once. Any other way to decide leads to
the same end: `Rounds` are the ways in which a byte string can be handed over if each time any part
of what is left may be taken, and `Deliveries` those for several byte strings, to the first failure.
All of them leave as much as there is room for (`Rounds.eq`, `deliveries_iff`), and so what is held
of a document is its beginning, however it is divided and taken (`Document.write_until_full`). -/

namespace PackageAtlas

namespace Destination

/-- What can come of handing over a byte string, then what was left of it, until all is taken. Each
time the destination takes any part from the front that there is room for, and it fails only where
there is room for nothing. -/
inductive Rounds : Destination → Bytes → Destination × Option WriteFailure → Prop where
  | done (destination : Destination) : Rounds destination [] (destination, none)
  | took {destination : Destination} {front rest : Bytes}
      {result : Destination × Option WriteFailure} (hne : front ≠ [])
      (hroom : destination.room front.length = front.length)
      (next : Rounds (destination.fill front) rest result) :
      Rounds destination (front ++ rest) result
  | failed {destination : Destination} {bytes : Bytes} (hne : bytes ≠ [])
      (hfull : destination.room bytes.length = 0) :
      Rounds destination bytes (destination, some destination.failure)

/-- What can come of handing over one byte string after the other. -/
inductive Deliveries : Destination → List Bytes → Destination × Option WriteFailure → Prop where
  | done (destination : Destination) : Deliveries destination [] (destination, none)
  | next {destination between : Destination} {part : Bytes} {rest : List Bytes}
      {result : Destination × Option WriteFailure} (first : Rounds destination part (between, none))
      (others : Deliveries between rest result) : Deliveries destination (part :: rest) result
  | failed {destination last : Destination} {part : Bytes} {rest : List Bytes}
      {failure : WriteFailure} (first : Rounds destination part (last, some failure)) :
      Deliveries destination (part :: rest) (last, some failure)

variable {destination : Destination} {result : Destination × Option WriteFailure}

/-! ## One byte string -/

/-- **However much is taken each time, in the end there is as much as there was room for.** -/
theorem Rounds.eq {bytes : Bytes} (h : Rounds destination bytes result) :
    result = (destination.fill bytes, destination.report bytes.length) := by
  induction h with
  | done destination => simp
  | took hne hroom next ih => rw [ih, fill_fill _ hroom, report_fill _ hroom, List.length_append]
  | failed hne hfull =>
      have hpos := List.length_pos_iff.2 hne
      rw [fill, report, hfull, if_neg (Nat.ne_of_lt hpos)]
      simp

/-- The portions that a destination takes by itself are such rounds. -/
theorem rounds_writeRounds (rounds : Nat) : ∀ (bytes : Bytes) (destination : Destination),
    bytes.length ≤ rounds → Rounds destination bytes (writeRounds rounds bytes destination) := by
  induction rounds with
  | zero =>
      intro bytes destination hbytes
      obtain rfl := List.eq_nil_of_length_eq_zero (Nat.le_zero.1 hbytes)
      exact .done destination
  | succ rounds ih =>
      intro bytes destination hbytes
      by_cases hne : bytes = []
      · subst hne
        exact .done destination
      have hpos := List.length_pos_iff.2 hne
      by_cases hcount : destination.taken bytes.length = 0
      · rw [writeRounds, if_pos hcount]
        · exact .failed hne (destination.room_eq_zero_of_taken hpos hcount)
        · exact hne
      · have htaken := destination.room_take_taken bytes
        have hrest : (bytes.drop (destination.taken bytes.length)).length ≤ rounds := by
          rw [List.length_drop]
          omega
        have hnext := Rounds.took (by simp [hne, hcount]) htaken (ih _ _ hrest)
        rwa [List.take_append_drop, ← writeRounds_succ destination rounds hne hcount] at hnext

/-! ## Several byte strings -/

theorem report_eq_none_iff (n : Nat) : destination.report n = none ↔ destination.room n = n := by
  simp [report]

theorem room_lt_of_report {n : Nat} {failure : WriteFailure}
    (h : destination.report n = some failure) :
    destination.room n < n ∧ destination.failure = failure := by
  unfold report at h
  split at h
  · cases h
  · next hroom =>
      exact ⟨Nat.lt_of_le_of_ne (destination.room_le n) hroom, Option.some.inj h⟩

theorem Deliveries.eq {parts : List Bytes} (h : Deliveries destination parts result) :
    result = (destination.fill parts.flatten, destination.report parts.flatten.length) := by
  induction h with
  | done destination => simp
  | next first others ih =>
      obtain ⟨rfl, hreport⟩ := Prod.mk.inj first.eq
      have hroom := (report_eq_none_iff _).1 hreport.symm
      rw [ih, fill_fill _ hroom, report_fill _ hroom, List.flatten_cons, List.length_append]
  | failed first =>
      obtain ⟨rfl, hreport⟩ := Prod.mk.inj first.eq
      obtain ⟨hlt, hfailure⟩ := room_lt_of_report hreport.symm
      rw [List.flatten_cons, List.length_append, fill_append_of_lt _ hlt, report_add_of_lt _ hlt,
        hfailure]

/-- What a destination does by itself with one byte string after the other is such a delivery. -/
theorem deliveries_writeEach (parts : List Bytes) : ∀ destination : Destination,
    Deliveries destination parts (destination.writeEach parts) := by
  induction parts with
  | nil => exact .done
  | cons part rest ih =>
      intro destination
      have hfirst := rounds_writeRounds part.length part destination (Nat.le_refl _)
      rw [← writeAll] at hfirst
      unfold writeEach
      split
      · next between hwritten =>
          rw [hwritten] at hfirst
          exact .next hfirst (ih between)
      · next last failure hwritten =>
          rw [hwritten] at hfirst
          exact .failed hfirst

/-- **All deliveries of the same bytes come to the same**, and there is one. -/
theorem deliveries_iff (parts : List Bytes) : Deliveries destination parts result ↔
    result = (destination.fill parts.flatten, destination.report parts.flatten.length) := by
  refine ⟨Deliveries.eq, fun h => ?_⟩
  rw [h, ← writeEach_eq]
  exact deliveries_writeEach parts destination

/-! ## Documents -/

theorem fill_bounded (capacity : Nat) (portion : Nat → Nat) (failure : WriteFailure)
    (bytes : Bytes) : fill { capacity := some capacity, portion, failure } bytes
      = { written := bytes.take (min capacity bytes.length), capacity := some capacity, portion,
          failure } := by
  rw [fill, room, Nat.min_comm]
  rfl

theorem report_bounded (capacity : Nat) (portion : Nat → Nat) (failure : WriteFailure) (n : Nat) :
    report { capacity := some capacity, portion, failure } n
      = if n ≤ capacity then none else some failure := by
  have hroom : room { capacity := some capacity, portion, failure } n = min n capacity := rfl
  have hiff : min n capacity = n ↔ n ≤ capacity := by omega
  simp only [report, hroom, hiff]

end Destination

open Destination

/-- The text of a document, line by line. -/
theorem Document.text_eq (layout : Layout) (body : List Text) :
    Document.text layout body
      = "@startuml\n".toList
          ++ (layout.title.map fun title => "title ".toList ++ title ++ ['\n']).getD []
          ++ body.flatMap (· ++ ['\n']) ++ "@enduml\n".toList := by
  cases htitle : layout.title <;>
    simp [Document.text, Document.lines, htitle]

/-- **A document is written up to the byte at which the destination fails.** If the destination has
room for a number of bytes, it holds as many of the document's first, in all if there are not so
many. There is a failure, the destination's own, if and only if the document is longer. That is so
for a document that is written line by line with any sizes of portions, and for one that is divided
into any byte strings, of which any parts are taken. -/
theorem Document.write_until_full (layout : Layout) (body : List Text) (capacity : Nat)
    (portion : Nat → Nat) (failure : WriteFailure) :
    let bytes := Utf8.encode ("@startuml\n".toList
      ++ (layout.title.map fun title => "title ".toList ++ title ++ ['\n']).getD []
      ++ body.flatMap (· ++ ['\n']) ++ "@enduml\n".toList)
    let destination : Destination := { capacity := some capacity, portion, failure }
    let result := ({ destination with written := bytes.take (min capacity bytes.length) },
      if bytes.length ≤ capacity then none else some failure)
    Document.write layout body destination = result ∧
    ∀ parts : List Bytes, parts.flatten = bytes →
      ∀ outcome, Deliveries destination parts outcome ↔ outcome = result := by
  intro bytes destination result
  have hresult : result = (destination.fill bytes, destination.report bytes.length) := by
    rw [fill_bounded, report_bounded]
  constructor
  · rw [hresult, Document.write_eq, Document.text_eq]
  · intro parts hparts outcome
    rw [deliveries_iff, hparts, hresult]

/-- The destination is full inside the title's last character, which takes two bytes. -/
theorem Document.write_until_full_torn :
    let bytes := Utf8.encode "@startuml\ntitle \u00E9\nclass\n@enduml\n".toList
    let destination : Destination :=
      { capacity := some 17, portion := (· % 3), failure := .tookNothing }
    let result := ({ destination with written := bytes.take 17 }, some WriteFailure.tookNothing)
    Document.write { title := some "\u00E9".toList } ["class".toList] destination = result ∧
    [bytes.take 11, [], bytes.drop 11].flatten = bytes ∧
    Deliveries destination [bytes.take 11, [], bytes.drop 11] result ∧
    (bytes.take 17).getLast? = some 0xC3 := by
  intro bytes destination result
  obtain ⟨hwrite, hdeliveries⟩ := Document.write_until_full { title := some "\u00E9".toList }
    ["class".toList] 17 (· % 3) .tookNothing
  have hparts : [bytes.take 11, [], bytes.drop 11].flatten = bytes := by simp
  exact ⟨hwrite, hparts, (hdeliveries _ hparts result).2 rfl, by decide⟩

end PackageAtlas
