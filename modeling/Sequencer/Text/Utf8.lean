/-!
# Texts as bytes

A text is stored in UTF-8. Reading back decides at every lead byte how many
continuation bytes are owed and between which bounds the first of them lies, so
that overlong forms, surrogates and numbers above `0x10FFFF` are refused.

`decode?` accepts whole texts only. `decodeLossy` reads any bytes: every longest
stretch that begins a character without finishing one is shown as one
replacement character.
-/

namespace Sequencer.Text.Utf8

/-- The bytes of a text. -/
def encode (text : List Char) : List UInt8 :=
  text.flatMap String.utf8EncodeChar

/-- What a lead byte promises: its own share of the code point, the number of
continuation bytes owed, and the bounds of the first of them. -/
structure Lead where
  payload : Nat
  owed : Nat
  low : UInt8
  high : UInt8

/-- The promise of a lead byte, if it can begin a character at all. -/
def Lead.ofByte? (b : UInt8) : Option Lead :=
  if b < 0x80 then some ⟨b.toNat, 0, 0x80, 0xBF⟩
  else if b < 0xC2 then none
  else if b < 0xE0 then some ⟨b.toNat - 0xC0, 1, 0x80, 0xBF⟩
  else if b = 0xE0 then some ⟨0, 2, 0xA0, 0xBF⟩
  else if b = 0xED then some ⟨0xD, 2, 0x80, 0x9F⟩
  else if b < 0xF0 then some ⟨b.toNat - 0xE0, 2, 0x80, 0xBF⟩
  else if b = 0xF0 then some ⟨0, 3, 0x90, 0xBF⟩
  else if b < 0xF4 then some ⟨b.toNat - 0xF0, 3, 0x80, 0xBF⟩
  else if b = 0xF4 then some ⟨4, 3, 0x80, 0x8F⟩
  else none

/-- Read the continuation bytes that are owed. The first component is the code
point, or `none` when a byte is missing or out of bounds; the second is what
has not been used up. -/
def continuation (payload : Nat) (low high : UInt8) : Nat → List UInt8 → Option Nat × List UInt8
  | 0, rest => (some payload, rest)
  | _ + 1, [] => (none, [])
  | owed + 1, b :: rest =>
      if low ≤ b ∧ b ≤ high then
        continuation (payload * 64 + (b.toNat - 0x80)) 0x80 0xBF owed rest
      else (none, b :: rest)

theorem length_continuation_le (payload : Nat) (low high : UInt8) (owed : Nat)
    (bytes : List UInt8) :
    (continuation payload low high owed bytes).2.length ≤ bytes.length := by
  induction owed generalizing payload low high bytes with
  | zero => simp [continuation]
  | succ owed inductionHypothesis =>
      cases bytes with
      | nil => simp [continuation]
      | cons b rest =>
          simp only [continuation]
          split
          · exact Nat.le_trans (inductionHypothesis _ _ _ _) (Nat.le_succ _)
          · exact Nat.le_refl _

/-- Read one character, or one stretch that is none, from its lead byte on. -/
def readOne (b : UInt8) (rest : List UInt8) : Option Char × List UInt8 :=
  match Lead.ofByte? b with
  | none => (none, rest)
  | some lead =>
      let read := continuation lead.payload lead.low lead.high lead.owed rest
      (read.1.map Char.ofNat, read.2)

theorem length_readOne_le (b : UInt8) (rest : List UInt8) :
    (readOne b rest).2.length ≤ rest.length := by
  unfold readOne
  split
  · exact Nat.le_refl _
  · exact length_continuation_le _ _ _ _ _

/-- The characters of a sequence of bytes, `none` for every stretch that is no
character. -/
def units : List UInt8 → List (Option Char)
  | [] => []
  | b :: rest => (readOne b rest).1 :: units (readOne b rest).2
termination_by bytes => bytes.length
decreasing_by
  have := length_readOne_le b rest
  simp only [List.length_cons]
  omega

/-- The text that is stored in a sequence of bytes, if it is one. -/
def decode? (bytes : List UInt8) : Option (List Char) :=
  (units bytes).mapM id

/-- The character that stands for bytes that store no text. -/
def replacement : Char := '\uFFFD'

/-- Read any bytes as a text, with the replacement character where they store
none. -/
def decodeLossy (bytes : List UInt8) : List Char :=
  (units bytes).map (·.getD replacement)

end Sequencer.Text.Utf8
