import PipeCodec.Proofs.Session.Answers

/-!
# Prompts in a row

Prompts are made one after the other on the same input, each with a sink of its own.  A prompt that
cannot be shown fails and leaves the input as it is; any other uses the next line, whatever that
holds.  So the lines are used in order, one for each prompt that is shown, and each prompt is told
by its own line alone.
-/

set_option autoImplicit false

namespace PipeCodec

namespace Sink

structure TakesPrompt (sink : Sink) : Prop where
  useful : sink.atOnce ≠ some 0
  roomy : ∀ room ∈ sink.room, 2 ≤ room
  flushes : sink.flushFailure = none

instance (sink : Sink) : Decidable sink.TakesPrompt :=
  decidable_of_iff (sink.atOnce ≠ some 0 ∧ (∀ room ∈ sink.room, 2 ≤ room) ∧
      sink.flushFailure = none)
    ⟨fun takes => ⟨takes.1, takes.2.1, takes.2.2⟩,
      fun takes => ⟨takes.useful, takes.roomy, takes.flushes⟩⟩

theorem writeAll_of_useless {sink : Sink} (useless : sink.atOnce = some 0) {bytes : Bytes}
    (someByte : bytes ≠ []) : sink.writeAll bytes = (.error .sinkFull, sink) := by
  have stuck : sink.accepts bytes.length = 0 := by
    rw [accepts, useless, Option.getD_some, Nat.min_zero]
  rw [writeAll, dif_neg someByte]
  exact dif_pos stuck

theorem fitting_prompt_iff (sink : Sink) :
    sink.fitting (Utf8.encode "> ") = Utf8.encode "> " ↔ ∀ room ∈ sink.room, 2 ≤ room := by
  rw [fitting_eq_self_iff]
  rfl

end Sink

namespace Session

/-! ## One prompt -/

theorem prompt_of_takesPrompt {sink : Sink} (takes : sink.TakesPrompt) (input : Bytes) :
    prompt ⟨input, sink⟩ =
      (Command.ofLine (Segment.cutAfter Feed.lineFeed input).1,
        ⟨(Segment.cutAfter Feed.lineFeed input).2, sink.absorb (Utf8.encode "> ")⟩) :=
  prompt_of_fits takes.useful takes.flushes (sink.fitting_prompt_iff.mpr takes.roomy)

theorem exists_failure_of_not_takesPrompt {sink : Sink} (fails : ¬ sink.TakesPrompt) :
    ∃ cause moved, showPrompt.run.run sink = (.error cause, moved) := by
  have shown : showPrompt = Connection.putLine (Utf8.encode "> ") := rfl
  rw [shown, Connection.putLine_run]
  by_cases useless : sink.atOnce = some 0
  · have someByte : Utf8.encode "> " ≠ [] := by decide +kernel
    rw [Sink.writeAll_of_useless useless someByte]
    exact ⟨_, _, rfl⟩
  · rw [Sink.writeAll_eq _ sink useless]
    by_cases fits : sink.fitting (Utf8.encode "> ") = Utf8.encode "> "
    · cases flushing : sink.flushFailure with
      | none => exact absurd ⟨useless, sink.fitting_prompt_iff.mp fits, flushing⟩ fails
      | some cause =>
        have kept : (sink.absorb (sink.fitting (Utf8.encode "> "))).flushFailure = some cause :=
          flushing
        simp only [if_pos fits, Sink.flush, kept]
        exact ⟨_, _, rfl⟩
    · simp only [if_neg fits]
      exact ⟨_, _, rfl⟩

/-- A prompt that cannot be shown fails and uses no input. -/
theorem prompt_of_not_takesPrompt {sink : Sink} (fails : ¬ sink.TakesPrompt) (input : Bytes) :
    ∃ cause moved, prompt ⟨input, sink⟩ = (.error (.failed cause), ⟨input, moved⟩) := by
  obtain ⟨cause, moved, failed⟩ := exists_failure_of_not_takesPrompt fails
  refine ⟨cause, moved, ?_⟩
  rw [prompt, failed]

/-! ## What a line commands -/

def commandOf : Option Bytes → Except SessionError Command
  | none => .ok .exit
  | some line =>
    match entry? line with
    | none => .error (.failed .notText)
    | some entry =>
      if entry = ".exit" then .ok .exit
      else if entry.toList.head? = some '.' then .error (.unrecognized entry)
      else .ok (.decode entry)

theorem ofLine_cutAfter (input : Bytes) :
    Command.ofLine (Segment.cutAfter Feed.lineFeed input).1 =
      commandOf (Segment.splitAfter Feed.lineFeed input).head? := by
  by_cases used : input = []
  · rw [used]
    rfl
  · rw [Segment.splitAfter_eq_cons used, List.head?_cons,
      ofLine_eq (Segment.cutAfter_fst_ne_nil Feed.lineFeed input used)]
    rfl

theorem exists_entry_of_commandOf {line : Option Bytes} {wire : String}
    (given : commandOf line = .ok (.decode wire)) :
    ∃ own, line = some own ∧ entry? own = some wire ∧ wire.toList.head? ≠ some '.' := by
  cases line with
  | none => cases given
  | some own =>
    refine ⟨own, rfl, ?_⟩
    rw [commandOf] at given
    cases typed : entry? own with
    | none =>
      rw [typed] at given
      cases given
    | some entry =>
      simp only [typed] at given
      split_ifs at given with leaves dotted
      · cases given
      · cases given
        exact ⟨rfl, dotted⟩

theorem getLast?_rdropWhile_ne {α : Type} {test : α → Bool} {x : α} (dropped : test x = true)
    (items : List α) : (items.rdropWhile test).getLast? ≠ some x := by
  intro last
  have someItem : items.rdropWhile test ≠ [] := by
    intro nothing
    rw [nothing] at last
    cases last
  have kept := List.rdropWhile_last_not test items someItem
  rw [List.getLast?_eq_some_getLast someItem, Option.some.injEq] at last
  rw [last] at kept
  exact kept dropped

/-- An entry has no line end at its end. -/
theorem getLast?_entry {line : Bytes} {entry : String} (typed : entry? line = some entry) :
    entry.toList.getLast? ≠ some '\r' ∧ entry.toList.getLast? ≠ some '\n' := by
  obtain ⟨text, read, rfl⟩ := Option.map_eq_some_iff.mp typed
  rw [String.toList_ofList]
  exact ⟨getLast?_rdropWhile_ne rfl _, getLast?_rdropWhile_ne rfl _⟩

/-! ## Prompts in a row -/

def promptEach (input : Bytes) : List Sink → List (Except SessionError Command) × Bytes
  | [] => ([], input)
  | sink :: sinks =>
    let (result, moved) := prompt ⟨input, sink⟩
    let (results, final) := promptEach moved.input sinks
    (result :: results, final)

theorem promptEach_cons (input : Bytes) (sink : Sink) (sinks : List Sink) :
    promptEach input (sink :: sinks) =
      ((prompt ⟨input, sink⟩).1 :: (promptEach (prompt ⟨input, sink⟩).2.input sinks).1,
        (promptEach (prompt ⟨input, sink⟩).2.input sinks).2) :=
  rfl

theorem length_promptEach (input : Bytes) (sinks : List Sink) :
    (promptEach input sinks).1.length = sinks.length := by
  induction sinks generalizing input with
  | nil => rfl
  | cons sink sinks ih => rw [promptEach_cons, List.length_cons, ih, List.length_cons]

theorem promptEach_at {sink : Sink} (sinks : List Sink) : ∀ (input : Bytes) (index : Nat),
    sinks[index]? = some sink →
      (promptEach input sinks).1[index]? =
          some (prompt ⟨(promptEach input (sinks.take index)).2, sink⟩).1 ∧
        (promptEach input (sinks.take (index + 1))).2 =
          (prompt ⟨(promptEach input (sinks.take index)).2, sink⟩).2.input := by
  induction sinks with
  | nil => intro input index found; cases found
  | cons first sinks ih =>
    intro input index found
    cases index with
    | zero =>
      cases found
      exact ⟨rfl, rfl⟩
    | succ index =>
      rw [List.getElem?_cons_succ] at found
      obtain ⟨result, left⟩ := ih (prompt ⟨input, first⟩).2.input index found
      exact ⟨result, left⟩

/-- Prompts use as many lines as can be shown. -/
theorem promptEach_left (sinks : List Sink) : ∀ input : Bytes,
    (promptEach input sinks).2 = ((Segment.splitAfter Feed.lineFeed input).drop
      (sinks.countP fun sink => sink.TakesPrompt)).flatten := by
  induction sinks with
  | nil =>
    intro input
    rw [List.countP_nil, List.drop_zero, Segment.flatten_splitAfter]
    rfl
  | cons sink sinks ih =>
    intro input
    rw [promptEach_cons, ih]
    by_cases takes : sink.TakesPrompt
    · rw [prompt_of_takesPrompt takes, List.countP_cons_of_pos (by simpa using takes),
        ← Segment.tail_splitAfter, List.drop_tail]
    · obtain ⟨cause, moved, failed⟩ := prompt_of_not_takesPrompt takes input
      rw [failed, List.countP_cons_of_neg (by simpa using takes)]

theorem splitAfter_left (input : Bytes) (sinks : List Sink) :
    Segment.splitAfter Feed.lineFeed (promptEach input sinks).2 =
      (Segment.splitAfter Feed.lineFeed input).drop
        (sinks.countP fun sink => sink.TakesPrompt) := by
  rw [promptEach_left]
  exact Segment.splitAfter_flatten_back _ (List.take_append_drop _ _).symm

/-- The line that the prompts before a position leave to the prompt there, if any is left. -/
def lineAt (input : Bytes) (sinks : List Sink) (index : Nat) : Option Bytes :=
  (Segment.splitAfter Feed.lineFeed input)[
    (sinks.take index).countP fun sink => sink.TakesPrompt]?

section Positions

variable {input : Bytes} {sinks : List Sink} {index : Nat} {sink : Sink}

theorem lineAt_eq_head? (input : Bytes) (sinks : List Sink) (index : Nat) :
    lineAt input sinks index =
      (Segment.splitAfter Feed.lineFeed (promptEach input (sinks.take index)).2).head? := by
  rw [splitAfter_left, List.head?_drop]
  rfl

/-- A prompt that is shown uses the line that is left to it, and is told by that line. -/
theorem promptEach_at_of_takesPrompt (found : sinks[index]? = some sink)
    (takes : sink.TakesPrompt) :
    (promptEach input sinks).1[index]? = some (commandOf (lineAt input sinks index)) ∧
      (promptEach input (sinks.take index)).2 =
        (lineAt input sinks index).getD [] ++ (promptEach input (sinks.take (index + 1))).2 := by
  obtain ⟨result, left⟩ := promptEach_at sinks input index found
  rw [prompt_of_takesPrompt takes] at result left
  rw [lineAt_eq_head?, result, left, ofLine_cutAfter, Segment.head?_splitAfter,
    Segment.cutAfter_append]
  exact ⟨rfl, rfl⟩

theorem promptEach_at_of_not_takesPrompt (found : sinks[index]? = some sink)
    (fails : ¬ sink.TakesPrompt) :
    (∃ cause, (promptEach input sinks).1[index]? = some (.error (.failed cause))) ∧
      (promptEach input (sinks.take (index + 1))).2 = (promptEach input (sinks.take index)).2 := by
  obtain ⟨result, left⟩ := promptEach_at sinks input index found
  obtain ⟨cause, moved, failed⟩ :=
    prompt_of_not_takesPrompt fails (promptEach input (sinks.take index)).2
  rw [failed] at result left
  exact ⟨⟨cause, result⟩, left⟩

/-- What is to be decoded was typed on one of the lines. -/
theorem exists_line_of_decode {wire : String}
    (given : .ok (.decode wire) ∈ (promptEach input sinks).1) :
    ∃ line ∈ Segment.splitAfter Feed.lineFeed input, entry? line = some wire ∧
      wire.toList.head? ≠ some '.' := by
  obtain ⟨index, result⟩ := List.mem_iff_getElem?.mp given
  have within : index < sinks.length := by
    rw [← length_promptEach input sinks]
    exact (List.getElem?_eq_some_iff.mp result).1
  have found := List.getElem?_eq_getElem within
  by_cases takes : sinks[index].TakesPrompt
  · rw [(promptEach_at_of_takesPrompt found takes).1, Option.some.injEq] at result
    obtain ⟨line, own, typed, undotted⟩ := exists_entry_of_commandOf result
    exact ⟨line, List.mem_of_getElem? own, typed, undotted⟩
  · obtain ⟨⟨cause, failed⟩, -⟩ := promptEach_at_of_not_takesPrompt found takes
    rw [failed] at result
    cases result

end Positions

/-- Prompts use one line each if they are shown, and nothing if not.  A prompt that cannot be shown
fails; any other is told by the line that is left to it, or by the end of the input.  What it gives
to decode begins with no dot, ends in no line end and holds no line feed. -/
theorem prompts_use_line_after_line (input : Bytes) (sinks : List Sink) :
    (promptEach input sinks).2 = ((Segment.splitAfter Feed.lineFeed input).drop
      (sinks.countP fun sink => sink.TakesPrompt)).flatten ∧
    (∀ (index : Nat) (sink : Sink), sinks[index]? = some sink →
      (¬ sink.TakesPrompt →
        (∃ cause, (promptEach input sinks).1[index]? = some (.error (.failed cause))) ∧
        (promptEach input (sinks.take (index + 1))).2 =
          (promptEach input (sinks.take index)).2) ∧
      (sink.TakesPrompt →
        (promptEach input sinks).1[index]? = some (commandOf (lineAt input sinks index)) ∧
        (promptEach input (sinks.take index)).2 =
          (lineAt input sinks index).getD [] ++ (promptEach input (sinks.take (index + 1))).2) ∧
      (sink.TakesPrompt → (promptEach input (sinks.take index)).2 = [] →
        (promptEach input sinks).1[index]? = some (.ok .exit))) ∧
    ∀ wire, .ok (.decode wire) ∈ (promptEach input sinks).1 →
      wire.toList.head? ≠ some '.' ∧
      (wire.toList.getLast? ≠ some '\r' ∧ wire.toList.getLast? ≠ some '\n') ∧
      OneLine wire := by
  refine ⟨promptEach_left sinks input, ?_, ?_⟩
  · intro index sink found
    refine ⟨promptEach_at_of_not_takesPrompt found, promptEach_at_of_takesPrompt found, ?_⟩
    intro takes exhausted
    have ended : lineAt input sinks index = none := by
      rw [lineAt_eq_head?, exhausted]
      rfl
    rw [(promptEach_at_of_takesPrompt found takes).1, ended]
    rfl
  · intro wire given
    obtain ⟨line, among, typed, undotted⟩ := exists_line_of_decode given
    exact ⟨undotted, getLast?_entry typed, oneLine_entry among typed⟩

/-- Two prompts that cannot be shown and a line that is no text do not shift the lines behind
them. -/
theorem lines_stay_aligned_behind_failures :
    (promptEach ([0xFF, 0x0A] ++ Utf8.encode ".x\nA|\r")
        [⟨[], some 1, none, none⟩, .unlimited, ⟨[], none, none, some (.reported "stuck")⟩,
          ⟨[], some 2, some 1, none⟩, .unlimited, .unlimited]).1[3]? =
        some (.error (.unrecognized ".x")) ∧
      (promptEach ([0xFF, 0x0A] ++ Utf8.encode ".x\nA|\r")
        [⟨[], some 1, none, none⟩, .unlimited, ⟨[], none, none, some (.reported "stuck")⟩,
          ⟨[], some 2, some 1, none⟩, .unlimited, .unlimited]).1[4]? =
        some (.ok (.decode "A|")) ∧
      (promptEach ([0xFF, 0x0A] ++ Utf8.encode ".x\nA|\r")
        [⟨[], some 1, none, none⟩, .unlimited, ⟨[], none, none, some (.reported "stuck")⟩,
          ⟨[], some 2, some 1, none⟩, .unlimited, .unlimited]).2 = [] := by
  obtain ⟨left, each, -⟩ := prompts_use_line_after_line ([0xFF, 0x0A] ++ Utf8.encode ".x\nA|\r")
    [⟨[], some 1, none, none⟩, .unlimited, ⟨[], none, none, some (.reported "stuck")⟩,
      ⟨[], some 2, some 1, none⟩, .unlimited, .unlimited]
  have third := ((each 3 ⟨[], some 2, some 1, none⟩ rfl).2.1 (by decide)).1
  have fourth := ((each 4 .unlimited rfl).2.1 (by decide)).1
  refine ⟨third.trans ?_, fourth.trans ?_, left.trans ?_⟩
  · decide +kernel
  · decide +kernel
  · decide +kernel

end Session

end PipeCodec
