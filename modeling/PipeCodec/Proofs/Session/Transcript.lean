import Mathlib.Data.List.DropRight
import PipeCodec.Proofs.Message.Wording
import PipeCodec.Proofs.Text.Segment
import PipeCodec.Session

/-!
# The transcript of a session

What a session prints is told by the lines of its input alone: a prompt for each and what that line
is answered with, until a line ends the session or the input is used up.  `transcript` says so, line
by line, without a sink and without a cursor into the input.  Every line that is answered adds one
line feed to the transcript, and what follows the line that ends the session adds nothing.
-/

set_option autoImplicit false

namespace PipeCodec

/-! ## What a line is answered with -/

namespace Session

/-- What was typed on a line, without any line ends at its end; nothing if the line is no text. -/
def entry? (line : Bytes) : Option String :=
  (Utf8.decode? line).map fun text =>
    String.ofList (text.toList.rdropWhile fun c => c = '\r' ∨ c = '\n')

def reply (settings : Settings) (entry : String) : String :=
  if entry = "" then ""
  else if entry.toList.head? = some '.' then "error: unrecognized command '" ++ entry ++ "'\n"
  else
    match Message.decode settings (Utf8.encode entry) with
    | .ok message => message.render ++ "\n"
    | .error cause => "error: " ++ cause.message ++ "\n"

def transcript (settings : Settings) : List Bytes → String × Except SessionError Unit
  | [] => ("> ", .ok ())
  | line :: later =>
    match entry? line with
    | none => ("> ", .error (.failed .notText))
    | some entry =>
      if entry = ".exit" then ("> ", .ok ())
      else
        let (output, result) := transcript settings later
        ("> " ++ (reply settings entry ++ output), result)

/-- A line that ends the session: no text, or the command to leave. -/
def Stops (line : Bytes) : Prop :=
  entry? line = none ∨ entry? line = some ".exit"

instance (line : Bytes) : Decidable (Stops line) :=
  inferInstanceAs (Decidable (_ ∨ _))

def Answered (line : Bytes) : Prop :=
  ¬ Stops line ∧ entry? line ≠ some ""

instance (line : Bytes) : Decidable (Answered line) :=
  inferInstanceAs (Decidable (_ ∧ _))

theorem dropEndWhile_isLineEnd (chars : List Char) :
    Segment.dropEndWhile isLineEnd chars = chars.rdropWhile fun c => c = '\r' ∨ c = '\n' := by
  have same : isLineEnd = fun c => decide (c = '\r' ∨ c = '\n') := by
    funext c
    rw [Bool.eq_iff_iff]
    simp [isLineEnd]
  rw [same]
  rfl

theorem ofLine_eq {line : Bytes} (someByte : line ≠ []) :
    Command.ofLine line =
      match entry? line with
      | none => .error (.failed .notText)
      | some entry =>
        if entry = ".exit" then .ok .exit
        else if entry.toList.head? = some '.' then .error (.unrecognized entry)
        else .ok (.decode entry) := by
  rw [Command.ofLine, if_neg someByte, entry?]
  cases Utf8.decode? line with
  | none => rfl
  | some text =>
    simp only [dropEndWhile_isLineEnd, Option.map_some, ← String.toList_inj, String.toList_ofList]

theorem react_ofLine (settings : Settings) {line : Bytes} (someByte : line ≠ []) :
    react settings (Command.ofLine line) =
      match entry? line with
      | none => .leave (.error (.failed .notText))
      | some entry =>
        if entry = ".exit" then .leave (.ok ()) else .say (reply settings entry) := by
  rw [ofLine_eq someByte]
  cases entry? line with
  | none => rfl
  | some entry =>
    by_cases exits : entry = ".exit"
    · simp only [if_pos exits]
      rfl
    · simp only [if_neg exits]
      rw [reply]
      by_cases dotted : entry.toList.head? = some '.'
      · have someChar : entry ≠ "" := by
          rintro rfl
          cases dotted
        have worded : react settings (.error (.unrecognized entry)) =
            .say ("error: " ++ ("unrecognized command '" ++ entry ++ "'") ++ "\n") := rfl
        rw [if_pos dotted, if_neg someChar, if_pos dotted, worded]
        congr 1
        simp [← String.toList_inj]
      · rw [if_neg dotted, if_neg dotted, react]
        split_ifs with empty
        · rfl
        · rw [answer]
          cases Message.decode settings (Utf8.encode entry) with
          | error cause => rfl
          | ok message => rfl

/-! ## Line by line -/

/-- What the transcript says of an input, in terms of its first line. -/
theorem transcript_splitAfter (settings : Settings) (input : Bytes) :
    transcript settings (Segment.splitAfter Feed.lineFeed input) =
      match react settings (Command.ofLine (Segment.cutAfter Feed.lineFeed input).1) with
      | .leave result => ("> ", result)
      | .say output =>
        let later := transcript settings
          (Segment.splitAfter Feed.lineFeed (Segment.cutAfter Feed.lineFeed input).2)
        ("> " ++ (output ++ later.1), later.2) := by
  by_cases used : input = []
  · subst used
    rfl
  · have someByte := Segment.cutAfter_fst_ne_nil Feed.lineFeed input used
    rw [Segment.splitAfter_eq_cons used, transcript, react_ofLine settings someByte]
    cases entry? (Segment.cutAfter Feed.lineFeed input).1 with
    | none => rfl
    | some entry =>
      by_cases leaves : entry = ".exit"
      · simp only [if_pos leaves]
      · simp only [if_neg leaves]

theorem exists_transcript_eq (settings : Settings) (lines : List Bytes) :
    ∃ later, (transcript settings lines).1 = "> " ++ later := by
  cases lines with
  | nil => exact ⟨"", rfl⟩
  | cons line lines =>
    rw [transcript]
    cases entry? line with
    | none => exact ⟨"", rfl⟩
    | some entry =>
      by_cases leaves : entry = ".exit"
      · simp only [if_pos leaves]
        exact ⟨"", rfl⟩
      · simp only [if_neg leaves]
        exact ⟨_, rfl⟩

/-- What follows a line that ends the session makes no difference. -/
theorem transcript_of_stops (settings : Settings) {line : Bytes} (stops : Stops line)
    (before later other : List Bytes) :
    transcript settings (before ++ line :: later) =
      transcript settings (before ++ line :: other) := by
  induction before with
  | nil =>
    rcases stops with malformed | leaves
    · simp only [List.nil_append, transcript, malformed]
    · simp only [List.nil_append, transcript, leaves, if_true]
  | cons first before ih => simp only [List.cons_append, transcript, ih]

/-! ## One line feed for each answer -/

theorem lineFeed_notMem_dropLast {line : Bytes} {text : String}
    (absent : Feed.lineFeed ∉ line.dropLast) (read : Utf8.decode? line = some text) :
    '\n' ∉ text.toList.dropLast := by
  rw [← Utf8.encode_of_decode? read, Utf8.encode] at absent
  rcases List.eq_nil_or_concat text.toList with empty | ⟨front, last, split⟩
  · rw [empty]
    exact List.not_mem_nil
  · rw [List.concat_eq_append] at split
    rw [split, Utf8.encodeChars, List.flatMap_append, List.flatMap_singleton,
      List.dropLast_append_of_ne_nil String.utf8EncodeChar_ne_nil, List.mem_append,
      not_or] at absent
    rw [split, List.dropLast_concat]
    intro member
    apply absent.1
    exact List.mem_flatMap.mpr ⟨'\n', member, List.mem_cons_self⟩

theorem notMem_rdropWhile {α : Type} {x : α} {items : List α} {test : α → Bool}
    (absent : x ∉ items.dropLast) (dropped : test x = true) : x ∉ items.rdropWhile test := by
  rcases List.eq_nil_or_concat items with rfl | ⟨front, last, rfl⟩
  · simp
  · rw [List.concat_eq_append, List.dropLast_concat] at absent
    rw [List.concat_eq_append, List.rdropWhile_concat]
    split_ifs with droppable
    · intro member
      exact absent ((List.rdropWhile_prefix test front).subset member)
    · rw [List.mem_append, List.mem_singleton, not_or]
      refine ⟨absent, ?_⟩
      rintro rfl
      exact droppable dropped

/-- An entry on a line of its own holds no line feed. -/
theorem oneLine_entry {input line : Bytes} {entry : String}
    (among : line ∈ Segment.splitAfter Feed.lineFeed input) (typed : entry? line = some entry) :
    OneLine entry := by
  obtain ⟨text, read, rfl⟩ := Option.map_eq_some_iff.mp typed
  rw [OneLine, String.toList_ofList]
  apply notMem_rdropWhile
  · exact lineFeed_notMem_dropLast (Segment.notMem_dropLast_of_mem_splitAfter among) read
  · rfl

theorem exists_reply_eq (settings : Settings) {entry : String} (someChar : entry ≠ "")
    (single : OneLine entry) :
    ∃ body, reply settings entry = body ++ "\n" ∧ OneLine body := by
  rw [reply, if_neg someChar]
  split_ifs with dotted
  · refine ⟨"error: unrecognized command '" ++ entry ++ "'", ?_, ?_⟩
    · simp [← String.toList_inj]
    · simpa [OneLine] using single
  · cases decoded : Message.decode settings (Utf8.encode entry) with
    | ok message => exact ⟨_, rfl, message.oneLine_render⟩
    | error cause =>
      refine ⟨_, rfl, ?_⟩
      rw [oneLine_append]
      refine ⟨by simp [OneLine], Message.oneLine_refusal ?_ decoded⟩
      exact (lineFeed_notMem_encode_iff entry).mpr single

theorem count_lineFeed_of_oneLine {text : String} (single : OneLine text) :
    (Utf8.encode text).count Feed.lineFeed = 0 := by
  rw [List.count_eq_zero]
  exact (lineFeed_notMem_encode_iff text).mpr single

theorem count_lineFeed_reply (settings : Settings) {entry : String} (someChar : entry ≠ "")
    (single : OneLine entry) :
    (Utf8.encode ("> " ++ reply settings entry)).count Feed.lineFeed = 1 := by
  obtain ⟨body, worded, inside⟩ := exists_reply_eq settings someChar single
  have shown : OneLine ("> " ++ body) := by
    rw [oneLine_append]
    exact ⟨by simp [OneLine], inside⟩
  have ending : (Utf8.encode "\n").count Feed.lineFeed = 1 := rfl
  rw [worded, ← String.append_assoc, Utf8.encode_append, List.count_append,
    count_lineFeed_of_oneLine shown, ending]

theorem count_lineFeed_turn (settings : Settings) {line : Bytes} {entry : String}
    (goesOn : ¬ Stops line) (typed : entry? line = some entry) (single : OneLine entry) :
    (Utf8.encode ("> " ++ reply settings entry)).count Feed.lineFeed =
      if Answered line then 1 else 0 := by
  by_cases empty : entry = ""
  · have silent : ¬ Answered line := by
      simp [Answered, typed, empty]
    rw [if_neg silent, empty, reply, if_pos rfl]
    rfl
  · have answered : Answered line := by
      simp [Answered, goesOn, typed, empty]
    rw [if_pos answered, count_lineFeed_reply settings empty single]

/-- The transcript has one line feed for each line that is answered before the session ends. -/
theorem count_lineFeed_transcript (settings : Settings) {lines : List Bytes}
    (single : ∀ line ∈ lines, ∀ entry, entry? line = some entry → OneLine entry) :
    (Utf8.encode (transcript settings lines).1).count Feed.lineFeed =
      (lines.takeWhile fun line => ¬ Stops line).countP fun line => Answered line := by
  have prompted : (Utf8.encode "> ").count Feed.lineFeed = 0 := rfl
  induction lines with
  | nil => exact prompted
  | cons line later ih =>
    obtain ⟨own, further⟩ := List.forall_mem_cons.mp single
    rw [transcript]
    cases typed : entry? line with
    | none =>
      have stops : Stops line := Or.inl typed
      rw [List.takeWhile_cons_of_neg (by simpa using stops)]
      exact prompted
    | some entry =>
      by_cases leaves : entry = ".exit"
      · have stops : Stops line := Or.inr (by rw [typed, leaves])
        rw [List.takeWhile_cons_of_neg (by simpa using stops)]
        simp only [if_pos leaves]
        exact prompted
      · have goesOn : ¬ Stops line := by
          simp [Stops, typed, leaves]
        rw [List.takeWhile_cons_of_pos (by simpa using goesOn), List.countP_cons]
        simp only [if_neg leaves, decide_eq_true_eq]
        rw [← String.append_assoc, Utf8.encode_append, List.count_append, ih further,
          count_lineFeed_turn settings goesOn typed (own entry typed), Nat.add_comm]

end Session

end PipeCodec
