import Sequencer.Frame.Description
import Sequencer.Proofs.Instruction.Listing
import Sequencer.Proofs.Job.Execution

/-!
# What a description shows

A frame can be described when it has a header and its code can be read to its end, whatever is asked
for. A description for a person and one as JSON show the same, line by line
(`Description.lines_text`, `Description.lines_json`), and either of them says it when the header
gives another duration than the code. It does so for no frame that a source is compiled to
(`describesCoherently`).
-/

namespace Sequencer

open Sequencer.Text

/-! ## Listings and quoted text -/

/-- The lines of a listing are its rows, each with bars between its fields. -/
theorem Listing.lines_eq {code : List UInt8} {text : String} (listed : ofCode code = .ok text) :
    Text.lines text =
      ((rows 0 (Decoded.ofCode code).instructions ++
          [totalRow (stepSum (Decoded.ofCode code).instructions), [""]]).map
        fun row => String.ofList (rowText row)) := by
  rw [← table_eq listed, table, Text.lines, List.map_map]
  apply List.map_congr_left
  intro line _
  simp [rowText, List.intercalate_splitOn]

/-- No line feed stands in a quoted text. -/
theorem Json.lacks_quote (text : String) : Lacks '\n' (Json.quote text) := by
  have escaped (c : Char) : '\n' ∉ escapeChar c := by
    by_cases broken : c = '\n'
    · rw [broken]
      decide
    · have other : '\n' ≠ c := Ne.symm broken
      have digits : '\n' ∉ (lowerHex 4 c.toNat).toList := lacks_lowerHex rfl 4 c.toNat
      unfold escapeChar
      split_ifs <;> simp [other, digits]
  rw [quote]
  apply lacks_ofList
  simp [escaped]

/-! ## Objects -/

namespace Json

/-- The line of a member of an object. -/
def memberLine (key : String) (value : Json) : String :=
  "  " ++ quote key ++ ": " ++ value.prettyAt 1

/-- The lines of the members of an object whose values take one line each. -/
def memberLines : List (String × Json) → List String
  | [] => []
  | [(key, value)] => [memberLine key value]
  | (key, value) :: next :: more => (memberLine key value ++ ",") :: memberLines (next :: more)

theorem toList_members (key : String) (value : Json) (more : List (String × Json)) :
    (memberLine key value ++ prettyMembers 1 more).toList ++ ['\n'] =
      ((memberLines ((key, value) :: more)).map fun line => line.toList ++ ['\n']).flatten := by
  have broken : (breakLine 1).toList = '\n' :: "  ".toList := rfl
  induction more generalizing key value with
  | nil => simp [memberLines, prettyMembers]
  | cons next more inductionHypothesis =>
      rw [memberLines, List.map_cons, List.flatten_cons, ← inductionHypothesis]
      simp only [prettyMembers, memberLine, String.toList_append, broken]
      simp

theorem toList_object (key : String) (value : Json) (more : List (String × Json)) :
    ((Json.object ((key, value) :: more)).pretty ++ "\n").toList =
      (("\x7b" :: memberLines ((key, value) :: more) ++ ["\x7d"]).map
        fun line => line.toList ++ ['\n']).flatten := by
  have broken : (breakLine 1).toList = '\n' :: "  ".toList := rfl
  have closed : (breakLine 0).toList = ['\n'] := rfl
  rw [List.cons_append, List.map_cons, List.flatten_cons, List.map_append, List.flatten_append,
    ← toList_members]
  simp only [pretty, prettyAt, memberLine, String.toList_append, broken, closed]
  simp

end Json

namespace Description

/-! ## What is shown -/

theorem toNat_duration (description : Description) :
    description.duration.toNat = 10 * description.steps.toNat % 2 ^ 64 :=
  toNat_nanoseconds description.steps

theorem isConsistent_iff (description : Description) :
    description.isConsistent ↔
      10 * description.steps.toNat % 2 ^ 64 = description.header.duration.toNat := by
  rw [isConsistent, decide_eq_true_eq, ← UInt64.toNat_inj, toNat_duration]

/-- The line that warns of a header that gives another duration than the code. -/
def warningLine (nanoseconds : Nat) : String := s!"warning  : code runs for {nanoseconds} ns"

/-- The lines of a description for a person, up to the listing. -/
def headLines (description : Description) : List String :=
  [s!"duration : {description.header.duration.toNat} ns",
      s!"steps    : {description.steps.toNat}",
      s!"ttl mask : 0x{lowerHex 8 description.header.ttlMask.toNat}",
      s!"code     : {description.codeLength} bytes"] ++
    if 10 * description.steps.toNat % 2 ^ 64 = description.header.duration.toNat then []
    else [warningLine (10 * description.steps.toNat % 2 ^ 64)]

/-- The lines of a description for a person. -/
def textLines (description : Description) : List String :=
  description.headLines ++ description.listing.elim [""] fun listing => "" :: Text.lines listing

/-- The line that says whether the header gives the duration of the code. -/
def consistentLine (consistent : Bool) : String :=
  "  \"consistent\": " ++ toString consistent ++ ","

/-- The lines of a description as JSON, each of which ends with a line feed. -/
def jsonLines (description : Description) : List String :=
  ["\x7b", s!"  \"code_len\": {description.codeLength},",
      consistentLine
        (10 * description.steps.toNat % 2 ^ 64 = description.header.duration.toNat)] ++
    (description.listing.map fun listing => "  \"disasm\": " ++ Json.quote listing ++ ",").toList ++
    [s!"  \"duration_ns\": {description.header.duration.toNat},",
      s!"  \"steps\": {description.steps.toNat},",
      s!"  \"ttl_mask\": {description.header.ttlMask.toNat}", "\x7d"]

theorem toList_text (description : Description) :
    description.text.toList =
      (description.headLines.map fun line => line.toList ++ ['\n']).flatten ++
        description.listing.elim [] fun listing => '\n' :: listing.toList := by
  unfold text headLines warningLine
  simp only [← isConsistent_iff, Listing.toString_uint64, toNat_duration]
  generalize 10 * description.steps.toNat % 2 ^ 64 = nanoseconds
  cases description.isConsistent <;> cases description.listing <;>
    simp [toString_string]

theorem lacks_headLines {description : Description} {line : String}
    (shown : line ∈ description.headLines) : Lacks '\n' line := by
  unfold headLines at shown
  rcases List.mem_append.mp shown with front | warning
  · simp only [List.mem_cons, List.not_mem_nil, or_false] at front
    rcases front with rfl | rfl | rfl | rfl
    · exact lacks_around rfl (by decide) (by decide) _
    · exact lacks_before rfl (by decide) _
    · exact (lacks_ofList (by decide)).append (lacks_lowerHex rfl 8 _)
    · exact lacks_around rfl (by decide) (by decide) _
  · split at warning
    · cases warning
    · rw [List.mem_singleton.mp warning]
      exact lacks_around rfl (by decide) (by decide) _

theorem lines_text (description : Description) :
    Text.lines description.text = description.textLines := by
  have written := description.toList_text
  have broken : Lacks '\n' "" := List.not_mem_nil
  unfold textLines
  cases listed : description.listing with
  | none =>
      have ended : description.text.toList =
          (description.headLines.map fun line => line.toList ++ ['\n']).flatten ++ "".toList := by
        rw [written, listed]
        rfl
      exact Text.lines_of_toList (fun line => lacks_headLines) ended
  | some listing =>
      have continued : description.text.toList =
          ((description.headLines ++ [""]).map fun line => line.toList ++ ['\n']).flatten ++
            listing.toList := by
        rw [written, listed]
        simp
      rw [Text.lines_of_toList _ continued, List.append_assoc]
      · rfl
      · intro line shown
        rcases List.mem_append.mp shown with front | last
        · exact lacks_headLines front
        · rw [List.mem_singleton.mp last]
          exact broken

theorem toList_json (description : Description) :
    (description.toJson.pretty ++ "\n").toList =
      (description.jsonLines.map fun line => line.toList ++ ['\n']).flatten := by
  have length : "  " ++ Json.quote "code_len" ++ ": " = "  \"code_len\": " := by decide
  have consistent : "  " ++ Json.quote "consistent" ++ ": " = "  \"consistent\": " := by decide
  have disasm : "  " ++ Json.quote "disasm" ++ ": " = "  \"disasm\": " := by decide
  have duration : "  " ++ Json.quote "duration_ns" ++ ": " = "  \"duration_ns\": " := by decide
  have steps : "  " ++ Json.quote "steps" ++ ": " = "  \"steps\": " := by decide
  have mask : "  " ++ Json.quote "ttl_mask" ++ ": " = "  \"ttl_mask\": " := by decide
  have number (count : Nat) : toString (count : Int) = toString count := rfl
  have truth (value : Bool) : (if value then "true" else "false") = toString value := by
    cases value <;> rfl
  unfold toJson jsonLines consistentLine
  simp only [← isConsistent_iff, Bool.decide_eq_true]
  cases description.listing <;>
    simp only [Option.map_none, Option.map_some, Option.toList_none, Option.toList_some,
      List.cons_append, List.nil_append, Json.toList_object, Json.memberLines, Json.memberLine,
      Json.prettyAt, length, consistent, disasm, duration, steps, mask, number, truth,
      toString_string]

theorem lacks_consistentLine (consistent : Bool) : Lacks '\n' (consistentLine consistent) := by
  cases consistent <;> decide

theorem lacks_jsonLines {description : Description} {line : String}
    (shown : line ∈ description.jsonLines) : Lacks '\n' line := by
  unfold jsonLines at shown
  rcases List.mem_append.mp shown with front | back
  · rcases List.mem_append.mp front with head | listed
    · simp only [List.mem_cons, List.not_mem_nil, or_false] at head
      rcases head with rfl | rfl | rfl
      · decide
      · exact lacks_around rfl (by decide) (by decide) _
      · exact lacks_consistentLine _
    · rw [Option.mem_toList, Option.map_eq_some_iff] at listed
      obtain ⟨listing, -, rfl⟩ := listed
      exact ((lacks_ofList (by decide)).append (Json.lacks_quote listing)).append
        (lacks_ofList (by decide))
  · simp only [List.mem_cons, List.not_mem_nil, or_false] at back
    rcases back with rfl | rfl | rfl | rfl
    · exact lacks_around rfl (by decide) (by decide) _
    · exact lacks_around rfl (by decide) (by decide) _
    · exact lacks_before rfl (by decide) _
    · decide

theorem lines_json (description : Description) :
    Text.lines (description.toJson.pretty ++ "\n") = description.jsonLines ++ [""] := by
  have written : (description.toJson.pretty ++ "\n").toList =
      (description.jsonLines.map fun line => line.toList ++ ['\n']).flatten ++ "".toList := by
    rw [toList_json]
    exact (List.append_nil _).symm
  exact Text.lines_of_toList (fun line => lacks_jsonLines) written

theorem mem_lines_text (description : Description) :
    "steps    : " ++ toString description.steps.toNat ∈ Text.lines description.text ∧
      "ttl mask : 0x" ++ lowerHex 8 description.header.ttlMask.toNat ∈
        Text.lines description.text := by
  rw [lines_text]
  constructor <;> apply List.mem_append_left <;> apply List.mem_append_left
  · exact List.mem_cons_of_mem _ List.mem_cons_self
  · exact List.mem_cons_of_mem _ (List.mem_cons_of_mem _ List.mem_cons_self)

theorem mem_lines_json (description : Description) :
    "  \"steps\": " ++ toString description.steps.toNat ++ "," ∈
        Text.lines (description.toJson.pretty ++ "\n") ∧
      "  \"ttl_mask\": " ++ toString description.header.ttlMask.toNat ∈
        Text.lines (description.toJson.pretty ++ "\n") := by
  rw [lines_json]
  constructor <;> apply List.mem_append_left <;> apply List.mem_append_right
  · exact List.mem_cons_of_mem _ List.mem_cons_self
  · exact List.mem_cons_of_mem _ (List.mem_cons_of_mem _ List.mem_cons_self)

/-! ## Warnings -/

theorem head?_warningLine (nanoseconds : Nat) :
    (warningLine nanoseconds).toList.head? = some 'w' := by
  unfold warningLine
  simp [toString_string]

/-- No line of a listing is a warning. -/
theorem warningLine_notMem_listing {code : List UInt8} {listing : String}
    (listed : Listing.ofCode code = .ok listing) (nanoseconds : Nat) :
    warningLine nanoseconds ∉ Text.lines listing := by
  have noBar : '|' ∉ (warningLine nanoseconds).toList :=
    lacks_around rfl (by decide) (by decide) _
  rw [Listing.lines_eq listed]
  intro shown
  obtain ⟨row, inside, same⟩ := List.mem_map.mp shown
  rcases List.mem_append.mp inside with within | last
  · obtain ⟨index, small, rfl⟩ := List.mem_mapIdx.mp within
    rw [← same, String.toList_ofList] at noBar
    exact noBar (by simp [Listing.rowText, PlacedInstruction.row, List.intercalate])
  · have first := head?_warningLine nanoseconds
    rw [← same] at first
    simp only [List.mem_cons, List.not_mem_nil, or_false] at last
    rcases last with rfl | rfl <;>
      simp [Listing.rowText, Listing.totalRow, List.intercalate, toString_string] at first

theorem consistentLine_injective : Function.Injective consistentLine := by
  intro consistent consistent' same
  cases consistent <;> cases consistent' <;> first | rfl | exact absurd same (by decide)

/-- A description as JSON says whether the header gives the duration of the code. -/
theorem consistentLine_mem_iff {description : Description} {consistent : Bool} :
    consistentLine consistent ∈ Text.lines (description.toJson.pretty ++ "\n") ↔
      (consistent ↔ 10 * description.steps.toNat % 2 ^ 64 = description.header.duration.toNat) := by
  -- No other line has the same character there.
  have sixth : (consistentLine consistent).toList[5]? = some 'n' := by
    cases consistent <;> rfl
  rw [lines_json]
  unfold jsonLines
  constructor
  · intro shown
    rcases List.mem_append.mp shown with lines | last
    rcases List.mem_append.mp lines with front | back
    · rcases List.mem_append.mp front with head | listed
      · simp only [List.mem_cons, List.not_mem_nil, or_false] at head
        rcases head with line | line | line
        · simp [line] at sixth
        · simp [line, toString_string] at sixth
        · rw [consistentLine_injective line, decide_eq_true_iff]
      · rw [Option.mem_toList, Option.map_eq_some_iff] at listed
        obtain ⟨listing, -, line⟩ := listed
        simp [← line] at sixth
    · simp only [List.mem_cons, List.not_mem_nil, or_false] at back
      rcases back with line | line | line | line <;> simp [line, toString_string] at sixth
    · simp [List.mem_singleton.mp last] at sixth
  · intro told
    rw [Bool.eq_iff_iff.mpr (told.trans decide_eq_true_iff.symm)]
    exact List.mem_append_left _ (List.mem_append_left _ (List.mem_append_left _ (by simp)))

end Description

/-! ## Describing the frame in some bytes -/

theorem Frame.exists_decode {bytes : List UInt8} (long : 12 ≤ bytes.length) :
    ∃ header, Frame.decode bytes = .ok ⟨header, bytes.drop 12⟩ :=
  ⟨_, if_neg (Nat.not_lt.mpr long)⟩

theorem totalSteps_eq_error_iff {code : List UInt8} {fault : Fault} :
    totalSteps code = .error fault ↔ (Decoded.ofCode code).fault = some fault := by
  unfold totalSteps
  cases found : (Decoded.ofCode code).fault <;> simp [found]

theorem totalSteps_eq_ok_iff {code : List UInt8} {steps : UInt64} :
    totalSteps code = .ok steps ↔
      (Decoded.ofCode code).fault = none ∧ steps = (Decoded.ofCode code).steps := by
  unfold totalSteps
  cases found : (Decoded.ofCode code).fault <;> simp [found, eq_comm]

namespace Description

theorem ofBytes_of_short {bytes : List UInt8} (short : bytes.length < 12) (withListing : Bool) :
    ofBytes bytes withListing = .error (.header (.truncatedFrame bytes.length)) := by
  rw [ofBytes, Frame.decode_of_short short]

theorem ofBytes_of_fault {bytes code : List UInt8} {header : Header} {fault : Fault}
    (decoded : Frame.decode bytes = .ok ⟨header, code⟩)
    (found : (Decoded.ofCode code).fault = some fault) (withListing : Bool) :
    ofBytes bytes withListing = .error (.code fault) := by
  rw [ofBytes, decoded]
  simp only [ofFrame, totalSteps_eq_error_iff.mpr found]

/-- Code can be listed when its steps can be counted, so it makes no difference whether a listing is
asked for. -/
theorem exists_ofBytes_eq {bytes code : List UInt8} {header : Header} {steps : UInt64}
    (decoded : Frame.decode bytes = .ok ⟨header, code⟩) (counted : totalSteps code = .ok steps) :
    ∃ listing, Listing.ofCode code = .ok listing ∧ ∀ withListing, ofBytes bytes withListing =
      .ok ⟨header, code.length, steps, if withListing then some listing else none⟩ := by
  have listed := Listing.ofCode_eq_ok_iff.mpr ⟨(totalSteps_eq_ok_iff.mp counted).1, rfl⟩
  refine ⟨_, listed, fun withListing => ?_⟩
  rw [ofBytes, decoded]
  simp only [ofFrame, counted, listed]
  cases withListing <;> rfl

theorem exists_ofCode_of_ofBytes {bytes : List UInt8} {withListing : Bool}
    {description : Description} {listing : String}
    (described : ofBytes bytes withListing = .ok description)
    (asked : description.listing = some listing) :
    ∃ code, Listing.ofCode code = .ok listing := by
  unfold ofBytes ofFrame at described
  repeat' split at described
  all_goals cases described
  · rename_i listed
    cases asked
    exact ⟨_, listed⟩
  · cases asked

/-- A description for a person warns exactly of a header that gives another duration than the
code. -/
theorem exists_warningLine_iff {bytes : List UInt8} {withListing : Bool}
    {description : Description} (described : ofBytes bytes withListing = .ok description) :
    (∃ nanoseconds, warningLine nanoseconds ∈ Text.lines description.text) ↔
      10 * description.steps.toNat % 2 ^ 64 ≠ description.header.duration.toNat := by
  rw [lines_text]
  constructor
  · rintro ⟨nanoseconds, shown⟩ same
    have first := head?_warningLine nanoseconds
    unfold textLines headLines at shown
    rw [if_pos same, List.append_nil] at shown
    rcases List.mem_append.mp shown with front | back
    · simp only [List.mem_cons, List.not_mem_nil, or_false] at front
      rcases front with line | line | line | line <;> simp [line, toString_string] at first
    · cases listing : description.listing with
      | none =>
          rw [listing] at back
          rw [List.mem_singleton.mp back] at first
          cases first
      | some text =>
          rw [listing] at back
          rcases List.mem_cons.mp back with line | behind
          · rw [line] at first
            cases first
          · obtain ⟨code, listed⟩ := exists_ofCode_of_ofBytes described listing
            exact warningLine_notMem_listing listed nanoseconds behind
  · intro other
    refine ⟨10 * description.steps.toNat % 2 ^ 64, List.mem_append_left _ ?_⟩
    unfold headLines
    rw [if_neg other]
    exact List.mem_append_right _ (List.mem_singleton_self _)

end Description

theorem describeFrame_text {bytes : List UInt8} {withListing : Bool} {description : Description}
    (described : Description.ofBytes bytes withListing = .ok description) :
    describeFrame bytes withListing false = .ok description.text := by
  rw [describeFrame, described]
  rfl

theorem describeFrame_json {bytes : List UInt8} {withListing : Bool} {description : Description}
    (described : Description.ofBytes bytes withListing = .ok description) :
    describeFrame bytes withListing true = .ok (description.toJson.pretty ++ "\n") := by
  rw [describeFrame, described]
  rfl

/-- Bytes are too few for a header, or their code has a fault, or they can be described. -/
theorem describeFrame_cases (bytes : List UInt8) :
    (bytes.length < 12 ∧ ∀ withListing asJson, describeFrame bytes withListing asJson =
        .error (.header (.truncatedFrame bytes.length))) ∨
      (12 ≤ bytes.length ∧ ∃ fault, (Decoded.ofCode (bytes.drop 12)).fault = some fault ∧
        ∀ withListing asJson, describeFrame bytes withListing asJson = .error (.code fault)) ∨
      (12 ≤ bytes.length ∧ (Decoded.ofCode (bytes.drop 12)).fault = none ∧
        ∀ withListing asJson, ∃ text, describeFrame bytes withListing asJson = .ok text) := by
  rcases Nat.lt_or_ge bytes.length 12 with short | long
  · refine .inl ⟨short, fun withListing asJson => ?_⟩
    rw [describeFrame, Description.ofBytes_of_short short]
    rfl
  · obtain ⟨header, decoded⟩ := Frame.exists_decode long
    cases found : (Decoded.ofCode (bytes.drop 12)).fault with
    | some fault =>
        refine .inr (.inl ⟨long, fault, rfl, fun withListing asJson => ?_⟩)
        rw [describeFrame, Description.ofBytes_of_fault decoded found]
        rfl
    | none =>
        obtain ⟨listing, -, described⟩ :=
          Description.exists_ofBytes_eq decoded (totalSteps_eq_ok_iff.mpr ⟨found, rfl⟩)
        refine .inr (.inr ⟨long, rfl, fun withListing asJson => ?_⟩)
        rw [describeFrame, described]
        exact ⟨_, rfl⟩

/-- A frame that a source is compiled to is that of the statements in the source. -/
theorem exists_of_execute_eq_success {limits : Limits} {source : List Char} {frame : Frame}
    (success : execute (.ofLimits limits) source = .ok (.success frame)) :
    ∃ statements, Program.ofText limits source = .ok statements ∧
      frame = ⟨.ofSteps
          (UInt64.ofNat (Program.steps (statements.map Statement.toInstruction)))
          (Program.ttlMask (statements.map Statement.toInstruction)),
        Program.encode (statements.map Statement.toInstruction)⟩ := by
  rw [execute_ofLimits_eq_ok, Except.ok.injEq] at success
  unfold Outcome.ofSource at success
  rcases read : Program.ofText? limits source with _ | error | statements
  · rw [read] at success
    cases success
  · rw [read] at success
    dsimp only at success
    cases shown : error.diagnostic? source <;> rw [shown] at success <;> cases success
  · rw [read] at success
    cases success
    obtain ⟨statements', read', same⟩ := Program.exists_ofText_of_ofText? read
    exact ⟨statements', read', by rw [same]⟩

/-- The frame of a program is described as the program says. -/
theorem exists_describeFrame_encode {instructions : List Instruction}
    (inRange : ∀ instruction ∈ instructions, instruction.command.InRange) (withListing : Bool) :
    ∃ description : Description,
      description.header.ttlMask = Program.ttlMask instructions ∧
      description.steps.toNat = Program.steps instructions % 2 ^ 64 ∧
      10 * description.steps.toNat % 2 ^ 64 = description.header.duration.toNat ∧
      Description.ofBytes
        (Frame.encode ⟨.ofSteps (UInt64.ofNat (Program.steps instructions))
          (Program.ttlMask instructions), Program.encode instructions⟩) withListing =
            .ok description := by
  obtain ⟨listing, -, described⟩ :=
    Description.exists_ofBytes_eq (Frame.decode_encode _) (totalSteps_encode inRange)
  exact ⟨_, rfl, Listing.toNat_ofNat _, (toNat_nanoseconds _).symm, described withListing⟩

/-! ## Coherence -/

/-- What holds of any bytes: what is said about the frame that they hold is coherent. -/
structure DescribesCoherently (bytes : List UInt8) : Prop where
  /-- They can be described exactly when there is a header and the code behind it can be read to its
  end, whatever is asked for. -/
  succeeds : ∀ withListing asJson,
    (∃ text, describeFrame bytes withListing asJson = .ok text) ↔
      12 ≤ bytes.length ∧ (Decoded.ofCode (bytes.drop 12)).fault = none
  /-- If they cannot, the same is said about it, whatever is asked for. -/
  fails : ∀ withListing asJson error, describeFrame bytes withListing asJson = .error error ↔
    (bytes.length < 12 ∧ error = .header (.truncatedFrame bytes.length)) ∨
      12 ≤ bytes.length ∧ ∃ fault, (Decoded.ofCode (bytes.drop 12)).fault = some fault ∧
        error = .code fault
  /-- Both forms show the duration and the mask of the header, the length of the code and its clock
  steps, and the listing if one is asked for. -/
  shows : ∀ header code steps, Frame.decode bytes = .ok ⟨header, code⟩ →
    totalSteps code = .ok steps →
      ∃ listing, Listing.ofCode code = .ok listing ∧ ∀ withListing,
        (∃ text, describeFrame bytes withListing false = .ok text ∧
          Text.lines text = Description.textLines
            ⟨header, code.length, steps, if withListing then some listing else none⟩) ∧
        ∃ json, describeFrame bytes withListing true = .ok json ∧
          Text.lines json = Description.jsonLines
            ⟨header, code.length, steps, if withListing then some listing else none⟩ ++ [""]
  /-- The one warns, and the other one denies that the frame is consistent, exactly when the code
  takes another time than the header gives, ten nanoseconds a step and modulo 2 ^ 64. -/
  warns : ∀ header code steps, Frame.decode bytes = .ok ⟨header, code⟩ →
    totalSteps code = .ok steps →
      ∀ withListing text, describeFrame bytes withListing false = .ok text →
      ∀ withListing' json, describeFrame bytes withListing' true = .ok json →
        ((∃ nanoseconds, Description.warningLine nanoseconds ∈ Text.lines text) ↔
          Description.consistentLine false ∈ Text.lines json) ∧
        (Description.consistentLine false ∈ Text.lines json ↔
          10 * steps.toNat % 2 ^ 64 ≠ header.duration.toNat)
  /-- If a source is compiled to them, they can be described, and what is shown is consistent and
  says what the program takes and which TTL lines it drives. -/
  compiled : ∀ limits source frame, execute (.ofLimits limits) source = .ok (.success frame) →
    bytes = frame.encode →
      ∃ statements, Program.ofText limits source = .ok statements ∧ ∀ withListing,
        (∃ text, describeFrame bytes withListing false = .ok text ∧
          (∀ nanoseconds, Description.warningLine nanoseconds ∉ Text.lines text) ∧
          "steps    : " ++ toString
              (Program.steps (statements.map Statement.toInstruction) % 2 ^ 64) ∈
            Text.lines text ∧
          "ttl mask : 0x" ++ lowerHex 8
              (Program.ttlMask (statements.map Statement.toInstruction)).toNat ∈
            Text.lines text) ∧
        ∃ json, describeFrame bytes withListing true = .ok json ∧
          Description.consistentLine true ∈ Text.lines json ∧
          "  \"steps\": " ++ toString
              (Program.steps (statements.map Statement.toInstruction) % 2 ^ 64) ++ "," ∈
            Text.lines json ∧
          "  \"ttl_mask\": " ++ toString
              (Program.ttlMask (statements.map Statement.toInstruction)).toNat ∈
            Text.lines json

/-- Whatever bytes are given, what is said about their frame is coherent. -/
theorem describesCoherently (bytes : List UInt8) : DescribesCoherently bytes where
  succeeds withListing asJson := by
    rcases describeFrame_cases bytes with
      ⟨short, failed⟩ | ⟨-, fault, found, failed⟩ | ⟨long, sound, described⟩
    · rw [failed]
      exact iff_of_false nofun fun held => Nat.not_le.mpr short held.1
    · rw [failed, found]
      exact iff_of_false nofun fun held => nomatch held.2
    · exact iff_of_true (described withListing asJson) ⟨long, sound⟩
  fails withListing asJson error := by
    rcases describeFrame_cases bytes with
      ⟨short, failed⟩ | ⟨long, fault, found, failed⟩ | ⟨long, sound, described⟩
    · rw [failed]
      simp [short, Nat.not_le.mpr short, eq_comm]
    · rw [failed, found]
      simp [long, Nat.not_lt.mpr long, eq_comm]
    · obtain ⟨text, shown⟩ := described withListing asJson
      rw [shown, sound]
      simp [Nat.not_lt.mpr long]
  shows header code steps decoded counted := by
    obtain ⟨listing, listed, described⟩ := Description.exists_ofBytes_eq decoded counted
    exact ⟨listing, listed, fun withListing =>
      ⟨⟨_, describeFrame_text (described withListing), Description.lines_text _⟩,
        ⟨_, describeFrame_json (described withListing), Description.lines_json _⟩⟩⟩
  warns header code steps decoded counted := by
    intro withListing text shown withListing' json shown'
    obtain ⟨listing, listed, described⟩ := Description.exists_ofBytes_eq decoded counted
    rw [describeFrame_text (described withListing)] at shown
    rw [describeFrame_json (described withListing')] at shown'
    cases shown
    cases shown'
    rw [Description.exists_warningLine_iff (described withListing),
      Description.consistentLine_mem_iff]
    simp
  compiled := by
    rintro limits source frame success rfl
    obtain ⟨statements, read, rfl⟩ := exists_of_execute_eq_success success
    refine ⟨statements, read, fun withListing => ?_⟩
    obtain ⟨description, mask, steps, consistent, described⟩ :=
      exists_describeFrame_encode (Program.inRange_of_ofText read) withListing
    refine ⟨⟨_, describeFrame_text described, ?_, ?_, ?_⟩,
      ⟨_, describeFrame_json described, ?_, ?_, ?_⟩⟩
    · intro nanoseconds warned
      exact (Description.exists_warningLine_iff described).mp ⟨nanoseconds, warned⟩ consistent
    · exact steps ▸ (description.mem_lines_text).1
    · exact mask ▸ (description.mem_lines_text).2
    · exact Description.consistentLine_mem_iff.mpr (iff_of_true rfl consistent)
    · exact steps ▸ (description.mem_lines_json).1
    · exact mask ▸ (description.mem_lines_json).2

end Sequencer
