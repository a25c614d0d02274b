import Sequencer.Proofs.Bytes.Words

/-!
# Fields in a row

Fields are words of four widths and stretches of bytes. They are written one behind the other, and
read by naming their shapes one after the other. A shape that needs more bytes than are left is
refused, and the reader stays where it is (`Reader.field_eq`). So what was written is read back
(`Reader.answers_writeAll`), and shapes that are refused make no difference to the others
(`Reader.answers_withoutInserted`).

A machine keeps the data as a whole, and where it stands in them in a word of 64 bits. A sum of
words may be none, and a stretch may lie outside of the data; there is no result then. On data whose
length is a word that never happens, and the answers are the same (`Window.exists_run?_eq`).
-/

namespace Sequencer.Bytes

/-! ## Fields -/

/-- What is written in one go. -/
inductive Field where
  | uint8 (word : UInt8)
  | uint16 (word : UInt16)
  | uint32 (word : UInt32)
  | uint64 (word : UInt64)
  | raw (bytes : List UInt8)
  deriving DecidableEq, Repr

/-- What can be asked for in one go. -/
inductive Shape where
  | uint8
  | uint16
  | uint32
  | uint64
  | raw (count : Nat)
  deriving DecidableEq, Repr

namespace Shape

/-- The number of bytes that a field of a shape takes. -/
def count : Shape → Nat
  | .uint8 => 1
  | .uint16 => 2
  | .uint32 => 4
  | .uint64 => 8
  | .raw count => count

/-- The field that bytes are. -/
def field : Shape → List UInt8 → Field
  | .uint8, bytes => .uint8 (UInt8.ofNat (toNat bytes))
  | .uint16, bytes => .uint16 (UInt16.ofNat (toNat bytes))
  | .uint32, bytes => .uint32 (UInt32.ofNat (toNat bytes))
  | .uint64, bytes => .uint64 (UInt64.ofNat (toNat bytes))
  | .raw _, bytes => .raw bytes

end Shape

namespace Field

/-- The bytes of a field. -/
def encode : Field → List UInt8
  | .uint8 word => [word]
  | .uint16 word => ofUInt16 word
  | .uint32 word => ofUInt32 word
  | .uint64 word => ofUInt64 word
  | .raw bytes => bytes

/-- The shape of a field. -/
def shape : Field → Shape
  | .uint8 _ => .uint8
  | .uint16 _ => .uint16
  | .uint32 _ => .uint32
  | .uint64 _ => .uint64
  | .raw bytes => .raw bytes.length

theorem length_encode (field : Field) : field.encode.length = field.shape.count := by
  cases field with
  | uint8 word => rfl
  | uint16 word => exact length_ofUInt16 word
  | uint32 word => exact length_ofUInt32 word
  | uint64 word => exact length_ofUInt64 word
  | raw bytes => rfl

theorem field_encode (field : Field) : field.shape.field field.encode = field := by
  cases field <;> simp [shape, encode, Shape.field, toNat]

end Field

/-- Write a field behind what a buffer holds. -/
def write (buffer : List UInt8) (field : Field) : List UInt8 := buffer ++ field.encode

/-- Write fields one behind the other. -/
def writeAll (fields : List Field) : List UInt8 := fields.foldl write []

theorem foldl_write (buffer : List UInt8) (fields : List Field) :
    fields.foldl write buffer = buffer ++ writeAll fields := by
  induction fields generalizing buffer with
  | nil => exact (List.append_nil _).symm
  | cons field rest inductionHypothesis =>
      have first : writeAll (field :: rest) = rest.foldl write field.encode := rfl
      rw [List.foldl_cons, inductionHypothesis, first, inductionHypothesis, write,
        List.append_assoc]

theorem writeAll_cons (field : Field) (rest : List Field) :
    writeAll (field :: rest) = field.encode ++ writeAll rest :=
  foldl_write field.encode rest

/-! ## Reading fields -/

namespace Reader

/-- The field that a read has found and the reader behind it. A reader that has failed is still
where it was. -/
def answer {α : Type} (reader : Reader) (make : α → Field) :
    Except Fault (α × Reader) → Except Fault Field × Reader
  | .ok (value, after) => (.ok (make value), after)
  | .error fault => (.error fault, reader)

/-- Read a field of some shape. -/
def field (reader : Reader) : Shape → Except Fault Field × Reader
  | .uint8 => reader.answer .uint8 reader.uint8
  | .uint16 => reader.answer .uint16 reader.uint16
  | .uint32 => reader.answer .uint32 reader.uint32
  | .uint64 => reader.answer .uint64 reader.uint64
  | .raw count => reader.answer .raw (reader.bytes count)

/-- What comes of reading fields one after the other. -/
def answers (reader : Reader) : List Shape → List (Except Fault Field)
  | [] => []
  | shape :: rest => (reader.field shape).1 :: (reader.field shape).2.answers rest

/-- The reader behind fields that were read one after the other. -/
def after (reader : Reader) (shapes : List Shape) : Reader :=
  shapes.foldl (fun reader shape => (reader.field shape).2) reader

variable {reader : Reader} {shape : Shape}

/-- A shape is met exactly when enough bytes are left, by the next of them. Otherwise the answer
says how many are asked for, and where, and the reader stays there. -/
theorem field_eq (reader : Reader) (shape : Shape) :
    reader.field shape =
      if shape.count ≤ reader.remaining then
        (.ok (shape.field (reader.rest.take shape.count)),
          ⟨reader.offset + shape.count, reader.rest.drop shape.count⟩)
      else (.error (.unexpectedEnd shape.count reader.offset), reader) := by
  have word {α : Type} (count : Nat) (ofNumber : Nat → α) (make : α → Field) :
      reader.answer make (reader.word count ofNumber) =
        if count ≤ reader.remaining then
          (.ok (make (ofNumber (toNat (reader.rest.take count)))),
            ⟨reader.offset + count, reader.rest.drop count⟩)
        else (.error (.unexpectedEnd count reader.offset), reader) := by
    rw [Reader.word, bytes_eq]
    by_cases enough : count ≤ reader.remaining
    · rw [if_pos enough, if_pos enough]
      rfl
    · rw [if_neg enough, if_neg enough]
      rfl
  cases shape with
  | uint8 => exact word 1 UInt8.ofNat .uint8
  | uint16 => exact word 2 UInt16.ofNat .uint16
  | uint32 => exact word 4 UInt32.ofNat .uint32
  | uint64 => exact word 8 UInt64.ofNat .uint64
  | raw count =>
      rw [field, bytes_eq, Shape.count]
      split <;> rfl

theorem field_of_le (enough : shape.count ≤ reader.remaining) :
    reader.field shape =
      (.ok (shape.field (reader.rest.take shape.count)),
        ⟨reader.offset + shape.count, reader.rest.drop shape.count⟩) := by
  rw [field_eq, if_pos enough]

theorem field_of_lt (few : reader.remaining < shape.count) :
    reader.field shape = (.error (.unexpectedEnd shape.count reader.offset), reader) := by
  rw [field_eq, if_neg (Nat.not_le.mpr few)]

/-- A reader that has refused a shape is where it was. -/
theorem field_snd_of_error {fault : Fault} (refused : (reader.field shape).1 = .error fault) :
    (reader.field shape).2 = reader := by
  rw [field_eq] at refused ⊢
  split at refused
  · cases refused
  · rename_i few
    rw [if_neg few]

/-! ### What was written -/

theorem field_encode_append (offset : Nat) (field : Field) (rest : List UInt8) :
    Reader.field ⟨offset, field.encode ++ rest⟩ field.shape =
      (.ok field, ⟨offset + field.encode.length, rest⟩) := by
  have enough : field.shape.count ≤ remaining ⟨offset, field.encode ++ rest⟩ := by
    rw [remaining, List.length_append, field.length_encode]
    exact Nat.le_add_right ..
  rw [field_of_le enough]
  dsimp only
  rw [← field.length_encode, List.take_left' rfl, List.drop_left' rfl, field.field_encode]

/-- What was written is read back, whatever stands behind it. -/
theorem answers_writeAll_append (offset : Nat) (fields : List Field) (rest : List UInt8) :
    Reader.answers ⟨offset, writeAll fields ++ rest⟩ (fields.map Field.shape) =
        fields.map .ok ∧
      Reader.after ⟨offset, writeAll fields ++ rest⟩ (fields.map Field.shape) =
        ⟨offset + (writeAll fields).length, rest⟩ := by
  induction fields generalizing offset with
  | nil => exact ⟨rfl, rfl⟩
  | cons field others inductionHypothesis =>
      obtain ⟨answers, after⟩ := inductionHypothesis (offset + field.encode.length)
      have first := field_encode_append offset field (writeAll others ++ rest)
      rw [writeAll_cons, List.append_assoc, List.map_cons, List.map_cons]
      constructor
      · rw [Reader.answers, first, answers]
      · rw [Reader.after, List.foldl_cons, first, List.length_append, ← Nat.add_assoc]
        exact after

theorem answers_writeAll (fields : List Field) :
    (start (writeAll fields)).answers (fields.map Field.shape) = fields.map .ok ∧
      (start (writeAll fields)).after (fields.map Field.shape) =
        ⟨(writeAll fields).length, []⟩ := by
  have read := answers_writeAll_append 0 fields []
  rwa [List.append_nil, Nat.zero_add] at read

/-! ### Where a reader stands -/

/-- A reader stands in data, with what is behind its offset in front of it. -/
structure StandsIn (reader : Reader) (data : List UInt8) : Prop where
  inside : reader.offset ≤ data.length
  rest : reader.rest = data.drop reader.offset

namespace StandsIn

variable {data : List UInt8}

theorem start (data : List UInt8) : StandsIn (start data) data :=
  ⟨Nat.zero_le _, rfl⟩

theorem balance (stands : reader.StandsIn data) :
    reader.offset + reader.remaining = data.length := by
  rw [remaining, stands.rest, List.length_drop]
  exact Nat.add_sub_cancel' stands.inside

theorem field (stands : reader.StandsIn data) (shape : Shape) :
    (reader.field shape).2.StandsIn data := by
  rcases Nat.lt_or_ge reader.remaining shape.count with few | enough
  · rw [field_of_lt few]
    exact stands
  · rw [field_of_le enough]
    have balance := stands.balance
    refine ⟨by dsimp only; omega, ?_⟩
    dsimp only
    rw [stands.rest, List.drop_drop]

/-- Wherever reading has come to, the reader stands in the data. -/
theorem after (stands : reader.StandsIn data) (shapes : List Shape) :
    (reader.after shapes).StandsIn data := by
  induction shapes generalizing reader with
  | nil => exact stands
  | cons shape rest inductionHypothesis => exact inductionHypothesis (stands.field shape)

end StandsIn

/-! ### Refused shapes -/

/-- Shapes, some of which are inserted, without these. -/
def withoutInserted (shapes : List (Shape × Bool)) : List Shape :=
  (shapes.filter fun shape => !shape.2).map Prod.fst

/-- Of the answers to shapes, some of which are inserted, those to the others. -/
def othersOf (shapes : List (Shape × Bool)) (answers : List (Except Fault Field)) :
    List (Except Fault Field) :=
  ((shapes.zip answers).filter fun shape => !shape.1.2).map Prod.snd

/-- Inserted shapes make no difference to the others if every one of them is refused. -/
theorem answers_withoutInserted (shapes : List (Shape × Bool))
    (refused : ∀ answered ∈ shapes.zip (reader.answers (shapes.map Prod.fst)),
      answered.1.2 = true → ∃ fault, answered.2 = .error fault) :
    othersOf shapes (reader.answers (shapes.map Prod.fst)) =
        reader.answers (withoutInserted shapes) ∧
      reader.after (shapes.map Prod.fst) = reader.after (withoutInserted shapes) := by
  induction shapes generalizing reader with
  | nil => exact ⟨rfl, rfl⟩
  | cons first rest inductionHypothesis =>
      obtain ⟨shape, inserted⟩ := first
      rw [List.map_cons, Reader.answers, List.zip_cons_cons, List.forall_mem_cons] at refused
      obtain ⟨others, after⟩ := inductionHypothesis refused.2
      cases inserted with
      | false => exact ⟨congrArg _ others, after⟩
      | true =>
          obtain ⟨fault, failed⟩ := refused.1 rfl
          have stays := field_snd_of_error failed
          rw [stays] at others after
          constructor
          · rw [List.map_cons, Reader.answers, stays]
            exact others
          · rw [List.map_cons, Reader.after, List.foldl_cons, stays]
            exact after

end Reader

/-! ## Reading with words -/

/-- Data, and the offset of the next byte in a word. -/
structure Window where
  data : List UInt8
  offset : UInt64

namespace Window

/-- The position before the first byte. -/
def start (data : List UInt8) : Window := ⟨data, 0⟩

/-- The number of bytes that are left, or zero where that is less than none. -/
def remaining (window : Window) : UInt64 :=
  if window.offset ≤ UInt64.ofNat window.data.length then
    UInt64.ofNat window.data.length - window.offset
  else 0

/-- The offset behind a number of bytes, if it is a word. -/
def stop? (window : Window) (count : UInt64) : Option UInt64 :=
  if window.offset.toNat + count.toNat < UInt64.size then some (window.offset + count) else none

/-- The bytes from the offset on up to another one, if there are such. -/
def stretch? (window : Window) (stop : UInt64) : Option (List UInt8) :=
  if window.offset ≤ stop ∧ stop.toNat ≤ window.data.length then
    some ((window.data.take stop.toNat).drop window.offset.toNat)
  else none

/-- Read bytes. -/
def bytes? (window : Window) (count : UInt64) :
    Option (Except Fault (List UInt8) × Window) :=
  if window.remaining < count then
    some (.error (.unexpectedEnd count.toNat window.offset.toNat), window)
  else do
    let stop ← window.stop? count
    let read ← window.stretch? stop
    some (.ok read, { window with offset := stop })

/-- Read bytes and make a field of them, of a shape that takes so many. -/
def field? (window : Window) (shape : Shape) : Option (Except Fault Field × Window) := do
  match ← window.bytes? (UInt64.ofNat shape.count) with
  | (.error fault, after) => some (.error fault, after)
  | (.ok read, after) =>
      let (own, _) ← split? shape.count read
      some (.ok (shape.field own), after)

/-- Read fields one after the other. -/
def run? (window : Window) : List Shape → Option (List (Except Fault Field) × Window)
  | [] => some ([], window)
  | shape :: rest => do
      let (answer, next) ← window.field? shape
      let (answers, last) ← next.run? rest
      some (answer :: answers, last)

/-- A window shows what a reader has in front of it. -/
structure Shows (window : Window) (reader : Reader) : Prop where
  short : window.data.length < UInt64.size
  offset : window.offset.toNat = reader.offset
  stands : reader.StandsIn window.data

namespace Shows

variable {window : Window} {reader : Reader} {shape : Shape} {count : Nat}

theorem start {data : List UInt8} (short : data.length < UInt64.size) :
    Shows (start data) (Reader.start data) :=
  ⟨short, rfl, .start data⟩

theorem toNat_remaining (shown : window.Shows reader) :
    window.remaining.toNat = reader.remaining := by
  have length := UInt64.toNat_ofNat_of_lt' shown.short
  have balance := shown.stands.balance
  have inside : window.offset ≤ UInt64.ofNat window.data.length := by
    rw [UInt64.le_iff_toNat_le, length, shown.offset]
    exact shown.stands.inside
  rw [remaining, if_pos inside, UInt64.toNat_sub_of_le _ _ inside, length, shown.offset]
  omega

theorem remaining_lt_iff (shown : window.Shows reader) (small : count < UInt64.size) :
    window.remaining < UInt64.ofNat count ↔ reader.remaining < count := by
  rw [UInt64.lt_iff_toNat_lt, shown.toNat_remaining, UInt64.toNat_ofNat_of_lt' small]

/-- The offset behind bytes that are there is a word. -/
theorem exists_stop?_eq (shown : window.Shows reader) (enough : count ≤ reader.remaining) :
    ∃ stop, window.stop? (UInt64.ofNat count) = some stop ∧
      stop.toNat = reader.offset + count := by
  have balance := shown.stands.balance
  have short := shown.short
  have word : (UInt64.ofNat count).toNat = count :=
    UInt64.toNat_ofNat_of_lt' (by omega)
  have fits : window.offset.toNat + (UInt64.ofNat count).toNat < UInt64.size := by
    rw [word, shown.offset]
    omega
  refine ⟨window.offset + UInt64.ofNat count, by rw [stop?, if_pos fits], ?_⟩
  rw [UInt64.toNat_add, Nat.mod_eq_of_lt fits, word, shown.offset]

/-- The stretch up to there is what the reader has next. -/
theorem stretch?_eq (shown : window.Shows reader) (enough : count ≤ reader.remaining)
    {stop : UInt64} (place : stop.toNat = reader.offset + count) :
    window.stretch? stop = some (reader.rest.take count) := by
  have ordered : window.offset ≤ stop := by
    rw [UInt64.le_iff_toNat_le, shown.offset, place]
    exact Nat.le_add_right ..
  have inside : stop.toNat ≤ window.data.length := by
    rw [place, ← shown.stands.balance]
    exact Nat.add_le_add_left enough _
  rw [stretch?, if_pos ⟨ordered, inside⟩, place, shown.offset, shown.stands.rest, List.drop_take,
    Nat.add_sub_cancel_left]

/-- A shape whose number of bytes is a word is met or refused as it is by the reader, and the window
goes on showing the reader. -/
theorem exists_field?_eq (shown : window.Shows reader) (small : shape.count < UInt64.size) :
    ∃ after, window.field? shape = some ((reader.field shape).1, after) ∧
      after.data = window.data ∧ after.Shows (reader.field shape).2 := by
  rcases Nat.lt_or_ge reader.remaining shape.count with few | enough
  · refine ⟨window, ?_, rfl, ?_⟩
    · rw [field?, bytes?, if_pos ((shown.remaining_lt_iff small).mpr few),
        Reader.field_of_lt few, UInt64.toNat_ofNat_of_lt' small, shown.offset]
      rfl
    · rw [Reader.field_of_lt few]
      exact shown
  · obtain ⟨stop, sum, place⟩ := shown.exists_stop?_eq enough
    have taken := shown.stretch?_eq enough place
    have length : (reader.rest.take shape.count).length = shape.count := by
      rw [List.length_take]
      exact Nat.min_eq_left enough
    have own : split? shape.count (reader.rest.take shape.count) =
        some (reader.rest.take shape.count, []) := by
      have all := Nat.le_of_eq length
      rw [split?_eq, if_pos (Nat.le_of_eq length.symm), List.take_of_length_le all,
        List.drop_of_length_le all]
    refine ⟨{ window with offset := stop }, ?_, rfl, ?_⟩
    · rw [field?, bytes?, if_neg (mt (shown.remaining_lt_iff small).mp (Nat.not_lt.mpr enough))]
      simp only [Option.bind_eq_bind, Option.bind_some, sum, taken, own,
        Reader.field_of_le enough]
    · have stands := shown.stands.field shape
      rw [Reader.field_of_le enough] at stands ⊢
      exact ⟨shown.short, place, stands⟩

/-- So are shapes one after the other. -/
theorem exists_run?_eq (shown : window.Shows reader) {shapes : List Shape}
    (small : ∀ shape ∈ shapes, shape.count < UInt64.size) :
    ∃ after, window.run? shapes = some (reader.answers shapes, after) ∧
      after.data = window.data ∧ after.Shows (reader.after shapes) := by
  induction shapes generalizing window reader with
  | nil => exact ⟨window, rfl, rfl, shown⟩
  | cons shape rest inductionHypothesis =>
      rw [List.forall_mem_cons] at small
      obtain ⟨next, first, same, showsNext⟩ := shown.exists_field?_eq small.1
      obtain ⟨last, others, same', showsLast⟩ := inductionHypothesis showsNext small.2
      refine ⟨last, ?_, same'.trans same, showsLast⟩
      rw [run?, first]
      simp only [Option.bind_eq_bind, Option.bind_some, others]
      rfl

/-- No sum is made for as many bytes as a word can ask for. -/
example : ((Window.start [7, 1, 2]).run? [.uint8, .raw (2 ^ 64 - 1), .uint16]).map Prod.fst =
    some [.ok (.uint8 7), .error (.unexpectedEnd (2 ^ 64 - 1) 1), .ok (.uint16 513)] := by
  rfl

end Shows

end Window

/-! ## Fields and their bytes -/

/-- What holds of fields and of data, whatever they are: fields are read back from their bytes, and
shapes that are refused do no harm. -/
structure ReadsFieldsBack (fields : List Field) (data : List UInt8) : Prop where
  /-- What was written is read back, and nothing is left. -/
  written : (Reader.start (writeAll fields)).answers (fields.map Field.shape) = fields.map .ok
  emptied : (Reader.start (writeAll fields)).after (fields.map Field.shape) =
    ⟨(writeAll fields).length, []⟩
  /-- Wherever a reader has come to, its offset and what is left make up the data. -/
  balanced : ∀ shapes reader, (Reader.start data).after shapes = reader →
    reader.offset + reader.remaining = data.length ∧ reader.rest = data.drop reader.offset
  /-- If enough bytes are left there, a shape is met by the next of them, and they are passed. -/
  met : ∀ shapes reader, (Reader.start data).after shapes = reader →
    ∀ shape : Shape, shape.count ≤ reader.remaining → reader.field shape =
      (.ok (shape.field ((data.drop reader.offset).take shape.count)),
        ⟨reader.offset + shape.count, data.drop (reader.offset + shape.count)⟩)
  /-- Otherwise it is refused with the number of bytes and the offset, and the reader stays. -/
  refused : ∀ shapes reader, (Reader.start data).after shapes = reader →
    ∀ shape : Shape, reader.remaining < shape.count → reader.field shape =
      (.error (.unexpectedEnd shape.count reader.offset), reader)
  /-- Shapes that are inserted anywhere and refused make no difference to the others. -/
  harmless : ∀ shapes : List (Shape × Bool),
    (∀ answered ∈ shapes.zip ((Reader.start data).answers (shapes.map Prod.fst)),
      answered.1.2 = true → ∃ fault, answered.2 = .error fault) →
    Reader.othersOf shapes ((Reader.start data).answers (shapes.map Prod.fst)) =
        (Reader.start data).answers (Reader.withoutInserted shapes) ∧
      (Reader.start data).after (shapes.map Prod.fst) =
        (Reader.start data).after (Reader.withoutInserted shapes)
  /-- With words, the answers are the same, and no sum or stretch is missing. -/
  words : data.length < 2 ^ 64 → ∀ shapes : List Shape, (∀ shape ∈ shapes, shape.count < 2 ^ 64) →
    ∃ window, (Window.start data).run? shapes = some ((Reader.start data).answers shapes, window) ∧
      window.data = data ∧
      window.offset.toNat = ((Reader.start data).after shapes).offset ∧
      window.remaining.toNat = ((Reader.start data).after shapes).remaining

/-- Fields are read back from their bytes, and shapes that are refused do no harm. -/
theorem readsFieldsBack (fields : List Field) (data : List UInt8) :
    ReadsFieldsBack fields data where
  written := (Reader.answers_writeAll fields).1
  emptied := (Reader.answers_writeAll fields).2
  balanced := by
    rintro shapes _ rfl
    have stands := (Reader.StandsIn.start data).after shapes
    exact ⟨stands.balance, stands.rest⟩
  met := by
    rintro shapes _ rfl shape enough
    have stands := (Reader.StandsIn.start data).after shapes
    rw [Reader.field_of_le enough, stands.rest, List.drop_drop]
  refused := by
    rintro shapes _ rfl shape few
    exact Reader.field_of_lt few
  harmless := Reader.answers_withoutInserted
  words short shapes small := by
    obtain ⟨window, run, same, shown⟩ := (Window.Shows.start short).exists_run?_eq small
    exact ⟨window, run, same, shown.offset, shown.toNat_remaining⟩

end Sequencer.Bytes
