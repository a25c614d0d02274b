/-!
# Flags

A command line is a list of words. A word with a hyphen in front holds flags: two
hyphens and a long name, or one hyphen and any number of letters. A flag may carry a
value, behind an equals sign, right behind its letter, or in the next word. A word of
two hyphens ends the flags, and a single hyphen is no flag at all.

Words are read from left to right, and the first thing wrong with them counts, unless
help or the version was asked for before.
-/

namespace Sequencer

/-- What a flag does. -/
inductive Flag.Kind where
  /-- It is on or off. -/
  | switch
  /-- It counts how often it is given. -/
  | counter
  | value
  | help
  | version
  deriving DecidableEq, Repr

/-- A flag. -/
structure Flag where
  long : String
  short : Option Char := none
  kind : Flag.Kind
  deriving DecidableEq, Repr

/-- What is wrong with a command line. -/
inductive UsageError where
  | unknownFlag (word : String)
  | unknownCommand (word : String)
  | missingCommand
  | missingValue (flag : String)
  | unwantedValue (flag : String)
  | invalidValue (flag value : String)
  | repeatedFlag (flag : String)
  | conflictingFlags (first second : String)
  | unexpectedArgument (word : String)
  | missingArgument (name : String)
  deriving DecidableEq, Repr

/-- A text between apostrophes. -/
def named (text : String) : String := "'" ++ text ++ "'"

/-- The sentence that reports what is wrong with a command line. -/
def UsageError.message : UsageError → String
  | .unknownFlag word => "unexpected argument " ++ named word ++ " found"
  | .unknownCommand word => "unrecognized subcommand " ++ named word
  | .missingCommand => "a subcommand is required but none was given"
  | .missingValue flag => "a value is required for " ++ named ("--" ++ flag) ++ " but none was given"
  | .unwantedValue flag => "unexpected value for " ++ named ("--" ++ flag)
  | .invalidValue flag value =>
      "invalid value " ++ named value ++ if flag.isEmpty then "" else " for " ++ named ("--" ++ flag)
  | .repeatedFlag flag => named ("--" ++ flag) ++ " cannot be used more than once"
  | .conflictingFlags first second =>
      named ("--" ++ first) ++ " cannot be used with " ++ named ("--" ++ second)
  | .unexpectedArgument word => "unexpected argument " ++ named word ++ " found"
  | .missingArgument name => "the required argument " ++ named name ++ " was not given"

/-- Why a command line does not ask for a task. -/
inductive Stop where
  | usage (error : UsageError)
  | help
  | version
  deriving DecidableEq, Repr

/-- What has been given on a command line so far. -/
structure Given where
  /-- Switches that are on. -/
  switches : List String := []
  /-- Flags with their values. -/
  values : List (String × String) := []
  /-- How often flags that count were given. -/
  counts : List (String × Nat) := []
  /-- Arguments that are no flags, in order. -/
  arguments : List String := []
  deriving DecidableEq, Repr, Inhabited

namespace Given

/-- Whether a switch is on. -/
def has (given : Given) (flag : String) : Bool := given.switches.contains flag

/-- The value of a flag. -/
def value? (given : Given) (flag : String) : Option String := given.values.lookup flag

/-- How often a flag was given. -/
def count (given : Given) (flag : String) : Nat := (given.counts.lookup flag).getD 0

/-- Give a flag without a value. -/
def addFlag (given : Given) (flag : Flag) : Except Stop Given :=
  match flag.kind with
  | .switch =>
      if given.has flag.long then .error (.usage (.repeatedFlag flag.long))
      else .ok { given with switches := flag.long :: given.switches }
  | .counter => .ok { given with counts := (flag.long, given.count flag.long + 1) :: given.counts }
  | .value => .error (.usage (.missingValue flag.long))
  | .help => .error .help
  | .version => .error .version

/-- Give a flag with a value. -/
def addValue (accept : String → String → Bool) (given : Given) (flag : Flag) (value : String) :
    Except Stop Given :=
  if (given.value? flag.long).isSome then .error (.usage (.repeatedFlag flag.long))
  else if accept flag.long value then
    .ok { given with values := (flag.long, value) :: given.values }
  else .error (.usage (.invalidValue flag.long value))

end Given

/-- The flags of a command, the values that they accept, and the largest number of
arguments, if there is one. -/
structure Usage where
  flags : List Flag
  accept : String → String → Bool
  arguments : Option Nat

namespace Usage

/-- The shapes that a word can have. -/
inductive Word where
  | plain
  /-- Two hyphens alone. -/
  | hyphens
  | long (name : String) (value : Option String)
  | short (letters : List Char)

/-- The shape of a word. -/
def Word.ofText (word : String) : Word :=
  match word.toList with
  | ['-', '-'] => .hyphens
  | '-' :: '-' :: rest =>
      let name := String.ofList (rest.takeWhile (· ≠ '='))
      match rest.dropWhile (· ≠ '=') with
      | [] => .long name none
      | _ :: value => .long name (some (String.ofList value))
  | ['-'] => .plain
  | '-' :: letters => .short letters
  | _ => .plain

/-- The value of a flag in the next word. -/
def nextValue (usage : Usage) (given : Given) (flag : Flag) :
    List String → Except Stop (Given × List String)
  | [] => .error (.usage (.missingValue flag.long))
  | word :: rest =>
      match Word.ofText word with
      | .plain => (given.addValue usage.accept flag word).map fun given => (given, rest)
      | _ => .error (.usage (.missingValue flag.long))

/-- The text behind an equals sign, or the whole text. -/
def unequal : List Char → List Char
  | '=' :: rest => rest
  | text => text

/-- Read letters that are flags. The words behind them may hold the value of the last. -/
def readLetters (usage : Usage) (words : List String) (given : Given) :
    List Char → Except Stop (Given × List String)
  | [] => .ok (given, words)
  | letter :: letters =>
      match usage.flags.find? (·.short = some letter) with
      | none => .error (.usage (.unknownFlag (String.ofList ['-', letter])))
      | some flag =>
          if flag.kind = .value then
            if letters.isEmpty then usage.nextValue given flag words
            else
              (given.addValue usage.accept flag (String.ofList (unequal letters))).map
                fun given => (given, words)
          else
            match given.addFlag flag with
            | .error stop => .error stop
            | .ok given => readLetters usage words given letters

/-- Read a flag by its long name. -/
def readLong (usage : Usage) (words : List String) (given : Given) (name : String)
    (value : Option String) : Except Stop (Given × List String) :=
  match usage.flags.find? (·.long = name) with
  | none => .error (.usage (.unknownFlag ("--" ++ name)))
  | some flag =>
      match value with
      | none =>
          if flag.kind = .value then usage.nextValue given flag words
          else (given.addFlag flag).map fun given => (given, words)
      | some value =>
          if flag.kind = .value then
            (given.addValue usage.accept flag value).map fun given => (given, words)
          else .error (.usage (.unwantedValue flag.long))

/-- Read an argument that is no flag. -/
def readArgument (usage : Usage) (given : Given) (word : String) : Except Stop Given :=
  if usage.arguments.any (· ≤ given.arguments.length) then
    .error (.usage (.unexpectedArgument word))
  else if usage.accept "" word then
    .ok { given with arguments := given.arguments ++ [word] }
  else .error (.usage (.invalidValue "" word))

/-- The words behind a value are words that stood there. -/
theorem length_nextValue_le {usage : Usage} {given next : Given} {flag : Flag}
    {words rest : List String}
    (read : usage.nextValue given flag words = .ok (next, rest)) :
    rest.length ≤ words.length := by
  unfold nextValue at read
  split at read
  · simp at read
  · split at read
    · cases added : given.addValue usage.accept flag ‹String› with
      | error stop => simp [added, Except.map] at read
      | ok value =>
          simp only [added, Except.map, Except.ok.injEq, Prod.mk.injEq] at read
          simp [← read.2]
    · simp at read

/-- The words behind letters are words that stood there. -/
theorem length_readLetters_le {usage : Usage} {words rest : List String} {given next : Given}
    {letters : List Char} (read : usage.readLetters words given letters = .ok (next, rest)) :
    rest.length ≤ words.length := by
  induction letters generalizing given with
  | nil =>
      simp only [readLetters, Except.ok.injEq, Prod.mk.injEq] at read
      simp [← read.2]
  | cons letter letters inductionHypothesis =>
      simp only [readLetters] at read
      split at read
      · simp at read
      · rename_i flag found
        split at read
        · split at read
          · exact length_nextValue_le read
          · cases added : given.addValue usage.accept flag (String.ofList (unequal letters)) with
            | error stop => simp [added, Except.map] at read
            | ok value =>
                simp only [added, Except.map, Except.ok.injEq, Prod.mk.injEq] at read
                simp [← read.2]
        · split at read
          · simp at read
          · exact inductionHypothesis read

/-- The words behind a long flag are words that stood there. -/
theorem length_readLong_le {usage : Usage} {words rest : List String} {given next : Given}
    {name : String} {value : Option String}
    (read : usage.readLong words given name value = .ok (next, rest)) :
    rest.length ≤ words.length := by
  unfold readLong at read
  split at read
  · simp at read
  · rename_i flag found
    split at read
    · split at read
      · exact length_nextValue_le read
      · cases added : given.addFlag flag with
        | error stop => simp [added, Except.map] at read
        | ok value =>
            simp only [added, Except.map, Except.ok.injEq, Prod.mk.injEq] at read
            simp [← read.2]
    · split at read
      · rename_i value _
        cases added : given.addValue usage.accept flag value with
        | error stop => simp [added, Except.map] at read
        | ok value =>
            simp only [added, Except.map, Except.ok.injEq, Prod.mk.injEq] at read
            simp [← read.2]
      · simp at read

/-- Read words up to the first that is no flag, if `untilPlain`, or all of them. The words
that are left are those from there on. -/
def read (usage : Usage) (untilPlain : Bool) (given : Given) :
    List String → Except Stop (Given × List String)
  | [] => .ok (given, [])
  | word :: words =>
      match Word.ofText word with
      | .hyphens =>
          if untilPlain then
            match words with
            | [] => .ok (given, [])
            | word :: _ => .error (.usage (.unexpectedArgument word))
          else (words.foldlM usage.readArgument given).map fun given => (given, [])
      | .plain =>
          if untilPlain then .ok (given, word :: words)
          else
            match usage.readArgument given word with
            | .error stop => .error stop
            | .ok given => usage.read untilPlain given words
      | .long name value =>
          match _read : usage.readLong words given name value with
          | .error stop => .error stop
          | .ok (given, rest) => usage.read untilPlain given rest
      | .short letters =>
          match _read : usage.readLetters words given letters with
          | .error stop => .error stop
          | .ok (given, rest) => usage.read untilPlain given rest
termination_by words => words.length
decreasing_by
  · simp
  · exact Nat.lt_succ_of_le (length_readLong_le _read)
  · exact Nat.lt_succ_of_le (length_readLetters_le _read)

end Usage

end Sequencer
