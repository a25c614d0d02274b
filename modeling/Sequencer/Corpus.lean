import Sequencer.Fault

/-!
# A synthetic command list

A command list of any length to measure compilers with. Its lines go round eight
shapes, so every command is used, and every number grows with the line and is taken
modulo the range of its place.
-/

namespace Sequencer

namespace Corpus

/-- The line with an index, without its line feed. -/
def line (index : Nat) : String :=
  match index % 8 with
  | 0 => s!"ttl({index % 32}) = {index % 2} t={index % 100}"
  | 1 => s!"freq({index % 22}) = {index * 1000}"
  | 2 => s!"amp({index % 22}) = {index % 4096}"
  | 3 => s!"phase({index % 22}) = {index % 65536}; wait({index % 50})"
  | 4 => s!"dac({index % 4}) = {index % 65536}"
  | 5 => s!"clock({index % 256})"
  | 6 => s!"# step {index}"
  | _ => "ttl = 0x" ++ lowerHex 1 index

/-- A command list with a number of lines. -/
def text (lines : Nat) : String :=
  String.join ((List.range lines).map fun index => line index ++ "\n")

end Corpus

end Sequencer
