import PackageAtlas.Diagram.Document

set_option autoImplicit false

/-! # What a destination holds after writing

However a destination divides what is handed to it, it ends with the beginning of it all that it had
room for (`Destination.fill`), and there is a failure if that is not the whole. This is said of one
byte string (`writeAll_eq`), of several (`writeEach_eq`) and so of documents
(`Document.write_eq`). -/

namespace PackageAtlas

namespace Destination

/-- How many of `n` more bytes there is room for. -/
def room (destination : Destination) (n : Nat) : Nat :=
  match destination.capacity with
  | none => n
  | some capacity => min n (capacity - destination.written.length)

/-- With as many of `bytes` more as there is room for. -/
def fill (destination : Destination) (bytes : Bytes) : Destination :=
  { destination with
    written := destination.written ++ bytes.take (destination.room bytes.length) }

/-- What is reported for `n` more bytes: a failure, unless there is room for all of them. -/
def report (destination : Destination) (n : Nat) : Option WriteFailure :=
  if destination.room n = n then none else some destination.failure

variable (destination : Destination)

/-! ## Room -/

theorem room_le (n : Nat) : destination.room n ≤ n := by
  unfold room
  split
  · exact Nat.le_refl n
  · exact Nat.min_le_left ..

theorem taken_le_room (n : Nat) : destination.taken n ≤ destination.room n := by
  unfold taken room
  cases destination.capacity with
  | none => exact Nat.min_le_left ..
  | some capacity => simp only; omega

/-- Nothing is taken only where there is no room. -/
theorem room_eq_zero_of_taken {n : Nat} (hn : 0 < n) (h : destination.taken n = 0) :
    destination.room n = 0 := by
  unfold taken at h
  unfold room
  cases hcapacity : destination.capacity with
  | none => simp only [hcapacity] at h; omega
  | some capacity => simp only [hcapacity] at h ⊢; omega

@[simp] theorem fill_nil : destination.fill [] = destination := by
  simp [fill]

@[simp] theorem report_zero : destination.report 0 = none :=
  if_pos (Nat.le_zero.1 (destination.room_le 0))

/-- Room for more bytes, when the first of them are in. -/
theorem room_fill {first : Bytes} (h : destination.room first.length = first.length) (n : Nat) :
    (destination.fill first).room n = destination.room (first.length + n) - first.length := by
  unfold fill
  rw [h, List.take_length]
  unfold room at h ⊢
  cases hcapacity : destination.capacity with
  | none => simp
  | some capacity =>
      simp only [hcapacity, List.length_append] at h ⊢
      omega

/-- What there is no room for is not followed by anything. -/
theorem room_add_of_lt {n : Nat} (h : destination.room n < n) (m : Nat) :
    destination.room (n + m) = destination.room n := by
  unfold room at h ⊢
  cases hcapacity : destination.capacity with
  | none => simp [hcapacity] at h
  | some capacity => simp only [hcapacity] at h ⊢; omega

/-! ## Two parts one after the other -/

theorem le_room_add {n : Nat} (h : destination.room n = n) (m : Nat) :
    n ≤ destination.room (n + m) := by
  unfold room at h ⊢
  cases hcapacity : destination.capacity with
  | none => simp
  | some capacity => simp only [hcapacity] at h ⊢; omega

theorem fill_fill {first : Bytes} (h : destination.room first.length = first.length)
    (rest : Bytes) : (destination.fill first).fill rest = destination.fill (first ++ rest) := by
  have hroom := destination.room_fill h rest.length
  have hle := destination.le_room_add h rest.length
  rw [fill, hroom]
  simp only [fill, h, List.take_length, List.length_append]
  rw [List.take_append, List.take_of_length_le hle, List.append_assoc]

theorem report_fill {first : Bytes} (h : destination.room first.length = first.length) (n : Nat) :
    (destination.fill first).report n = destination.report (first.length + n) := by
  have hle := destination.le_room_add h n
  have hiff : (destination.fill first).room n = n
      ↔ destination.room (first.length + n) = first.length + n := by
    rw [room_fill destination h]
    omega
  simp only [report, hiff]
  rfl

theorem fill_append_of_lt {first : Bytes} (h : destination.room first.length < first.length)
    (rest : Bytes) : destination.fill (first ++ rest) = destination.fill first := by
  rw [fill, fill, List.length_append, destination.room_add_of_lt h,
    List.take_append_of_le_length (Nat.le_of_lt h)]

theorem report_add_of_lt {n : Nat} (h : destination.room n < n) (m : Nat) :
    destination.report (n + m) = some destination.failure := by
  rw [report, destination.room_add_of_lt h, if_neg (by omega)]

/-! ## Writing -/

/-- One portion of a byte string is the string's beginning, and there was room for it. -/
theorem room_take_taken (bytes : Bytes) :
    destination.room (bytes.take (destination.taken bytes.length)).length
      = (bytes.take (destination.taken bytes.length)).length := by
  have htaken := destination.taken_le_room bytes.length
  have hroom := destination.room_le bytes.length
  rw [List.length_take_of_le (Nat.le_trans htaken hroom)]
  unfold room at htaken ⊢
  cases hcapacity : destination.capacity with
  | none => rfl
  | some capacity => simp only [hcapacity] at htaken ⊢; omega

/-- The next round has the rest of the bytes for a destination that holds the portion. -/
theorem writeRounds_succ (rounds : Nat) {bytes : Bytes} (hne : bytes ≠ [])
    (hcount : destination.taken bytes.length ≠ 0) :
    writeRounds (rounds + 1) bytes destination
      = writeRounds rounds (bytes.drop (destination.taken bytes.length))
          (destination.fill (bytes.take (destination.taken bytes.length))) := by
  rw [fill, room_take_taken, List.take_length, writeRounds, if_neg hcount]
  exact hne

theorem writeRounds_eq (rounds : Nat) : ∀ (bytes : Bytes) (destination : Destination),
    bytes.length ≤ rounds → writeRounds rounds bytes destination
      = (destination.fill bytes, destination.report bytes.length) := by
  induction rounds with
  | zero =>
      intro bytes destination hbytes
      obtain rfl := List.eq_nil_of_length_eq_zero (Nat.le_zero.1 hbytes)
      simp [writeRounds]
  | succ rounds ih =>
      intro bytes destination hbytes
      by_cases hne : bytes = []
      · subst hne
        simp [writeRounds]
      by_cases hcount : destination.taken bytes.length = 0
      · have hpos := List.length_pos_iff.2 hne
        have hroom := destination.room_eq_zero_of_taken hpos hcount
        rw [writeRounds, if_pos hcount, fill, report, hroom, if_neg (Nat.ne_of_lt hpos)]
        · simp
        · exact hne
      · have hlength : (bytes.drop (destination.taken bytes.length)).length ≤ rounds := by
          rw [List.length_drop]
          omega
        rw [writeRounds_succ destination rounds hne hcount, ih _ _ hlength,
          fill_fill destination (room_take_taken destination bytes),
          report_fill destination (room_take_taken destination bytes), ← List.length_append,
          List.take_append_drop]

theorem writeAll_eq (bytes : Bytes) : destination.writeAll bytes
    = (destination.fill bytes, destination.report bytes.length) :=
  writeRounds_eq bytes.length bytes destination (Nat.le_refl _)

/-- **Writing one byte string after the other is writing all of them at once.** -/
theorem writeEach_eq (parts : List Bytes) : ∀ destination : Destination,
    destination.writeEach parts
      = (destination.fill parts.flatten, destination.report parts.flatten.length) := by
  induction parts with
  | nil =>
      intro destination
      simp [writeEach]
  | cons part rest ih =>
      intro destination
      rw [writeEach, writeAll_eq, List.flatten_cons, List.length_append]
      by_cases hroom : destination.room part.length = part.length
      · rw [report, if_pos hroom]
        simp only [ih, fill_fill destination hroom, report_fill destination hroom]
      · have hlt : destination.room part.length < part.length :=
          Nat.lt_of_le_of_ne (destination.room_le _) hroom
        rw [report, if_neg hroom, fill_append_of_lt destination hlt,
          report_add_of_lt destination hlt]

end Destination

/-- **A document is written as far as there is room for it.** -/
theorem Document.write_eq (layout : Layout) (body : List Text) (destination : Destination) :
    Document.write layout body destination
      = (destination.fill (Utf8.encode (Document.text layout body)),
        destination.report (Utf8.encode (Document.text layout body)).length) := by
  have hflatten :
      ((Document.lines layout body).map fun line => Utf8.encode (line ++ ['\n'])).flatten
        = Utf8.encode (Document.text layout body) := by
    rw [Document.text, Utf8.encode, List.flatMap_assoc, ← List.flatMap_def]
    rfl
  rw [Document.write, Destination.writeEach_eq, hflatten]

end PackageAtlas
