import DeskCalculator.CommandLine.Program
import DeskCalculator.Proofs.Session.Ledger
import DeskCalculator.Proofs.Session.Separation

set_option autoImplicit false

namespace DeskCalculator

def printedText (os : List Outcome) : String := String.join (os.map Outcome.printed)

theorem printedText_append (os os' : List Outcome) :
    printedText (os ++ os') = printedText os ++ printedText os' := by
  simp only [printedText, List.map_append, String.join_append]

theorem printedText_flatten (runs : List (List Outcome)) :
    printedText runs.flatten = String.join (runs.map printedText) := by
  induction runs with
  | nil => rfl
  | cons os runs ih =>
    rw [List.flatten_cons, printedText_append, ih, List.map_cons, String.join_cons]

namespace CommandLine

theorem converse_eq (s : Session) (lines : List (List Char)) :
    converse s lines =
      (String.join ((s.evaluateEach lines).1.map fun os => prompt ++ printedText os) ++ prompt ++ "\n",
        (s.evaluateEach lines).2) := by
  induction lines generalizing s with
  | nil => simp [converse, Session.evaluateEach]
  | cons line rest ih =>
    simp only [converse, Session.calculate, ih, Session.evaluateEach, List.map_cons, String.join_cons,
      printedText, String.append_assoc]

theorem runTerminal_eq (s : Session) (text : List Char) :
    ∃ outs : List String,
      outs.length = (Text.lines text).length ∧
      String.join outs = (runText s text).output ∧
      runTerminal s text =
        { runText s text with output := String.join (outs.map (prompt ++ ·)) ++ prompt ++ "\n" } := by
  refine ⟨(s.evaluateEach (Text.lines text)).1.map printedText, ?_, ?_, ?_⟩
  · rw [List.length_map, s.length_evaluateEach]
  · rw [← printedText_flatten, runText, Session.calculate, s.evaluate_eq_evaluateEach]
    rfl
  · simp only [runTerminal, converse_eq, List.map_map, runText, Session.calculate,
      s.evaluate_eq_evaluateEach, Completion.ofSession]
    rfl

theorem exitCode_runText (levels : Nat) (text : List Char) :
    (runText { levels } text).exitCode = 0 ↔
      ∀ o ∈ (Session.evaluate { levels } text).1, ∃ x, o = .ok x := by
  obtain ⟨ps, h⟩ := Session.exists_posted_evaluate { levels } text
  rw [← h.errorCount_eq_iff]
  change min (Session.evaluate { levels } text).2.errorCount 255 = 0 ↔ _ = 0
  omega

variable {directory : Directory} {name : List Char} {bytes : List UInt8} {named plain : List (List Char)}
  {levels : Nat}

theorem run_file (input : StandardInput)
    (h : readArguments Depth.defaultCalls named = .ok (.calculation (some name) (some levels)))
    (hn : name.contains '\x00' = false) (hb : directory.read name = .ok bytes) :
    run named directory input = .ok (runText { levels } (inputText bytes)) := by
  simp only [run, h, perform, runFile, hn, hb, Bool.false_eq_true, if_false]

theorem run_input (directory : Directory) (input : StandardInput)
    (h : readArguments Depth.defaultCalls plain = .ok (.calculation none (some levels))) :
    run plain directory input = .ok (runInput input { levels }) := by
  simp only [run, h, perform]

/-- The same bytes in a file, through a pipe and typed at a terminal lead to the same exit code and the same
errors. Typed at a terminal, what is printed for each line follows a prompt. -/
theorem run_modes (input : StandardInput) (directory' : Directory)
    (hf : readArguments Depth.defaultCalls named = .ok (.calculation (some name) (some levels)))
    (hi : readArguments Depth.defaultCalls plain = .ok (.calculation none (some levels)))
    (hn : name.contains '\x00' = false) (hb : directory.read name = .ok bytes) :
    let text := inputText bytes
    let results := Session.evaluate { levels } text
    ∃ (c : Completion) (outs : List String),
      run named directory input = .ok c ∧
      run plain directory' { bytes, terminal := false } = .ok c ∧
      run plain directory' { bytes, terminal := true } =
        .ok { c with output := String.join (outs.map (prompt ++ ·)) ++ prompt ++ "\n" } ∧
      outs.length = (Text.lines text).length ∧
      String.join outs = c.output ∧
      (converse { levels } (Text.lines text)).2 = results.2 ∧
      c.exitCode = min results.2.errorCount 255 ∧
      (c.exitCode = 0 ↔ ∀ o ∈ results.1, ∃ x, o = .ok x) := by
  intro text results
  obtain ⟨outs, hl, hj, ht⟩ := runTerminal_eq { levels } text
  have hs : (converse { levels } (Text.lines text)).2 = results.2 := by
    rw [converse_eq]
    exact (congrArg Prod.snd (Session.evaluate_eq_evaluateEach { levels } text)).symm
  refine ⟨runText { levels } text, outs, run_file input hf hn hb, run_input _ _ hi, ?_, hl, hj, hs, rfl,
    exitCode_runText levels text⟩
  rw [run_input _ _ hi, ← ht]
  rfl

/-- A bracket is left open in the first line, and the last line does not end. -/
theorem run_openBracket :
    let bytes := "x = (1 +; ?\n2".toList.map fun c => c.toNat.toUInt8
    let directory : Directory := { items := [(["sums".toList], .file bytes)] }
    let named := ["--max-depth".toList, "3".toList, "sums".toList]
    let plain := ["--max-depth=3".toList]
    readArguments Depth.defaultCalls named = .ok (.calculation (some "sums".toList) (some 3)) ∧
      readArguments Depth.defaultCalls plain = .ok (.calculation none (some 3)) ∧
      "sums".toList.contains '\x00' = false ∧ directory.read "sums".toList = .ok bytes ∧
      ∃ (c : Completion) (outs : List String),
        run named directory { bytes := [], terminal := false } = .ok c ∧
        run plain {} { bytes, terminal := false } = .ok c ∧
        run plain {} { bytes, terminal := true } =
          .ok { c with output := String.join (outs.map (prompt ++ ·)) ++ prompt ++ "\n" } ∧
        outs.length = 2 ∧ String.join outs = c.output := by
  intro bytes directory named plain
  have hf : readArguments Depth.defaultCalls named =
      .ok (.calculation (some "sums".toList) (some 3)) := by decide +kernel
  have hi : readArguments Depth.defaultCalls plain = .ok (.calculation none (some 3)) := by
    decide +kernel
  have hb : directory.read "sums".toList = .ok bytes := by rfl
  have hl : (Text.lines (inputText bytes)).length = 2 := by decide +kernel
  obtain ⟨c, outs, h₁, h₂, h₃, h₄, h₅, -⟩ :=
    run_modes { bytes := [], terminal := false } {} hf hi (by decide) hb
  exact ⟨hf, hi, by decide, hb, c, outs, h₁, h₂, h₃, h₄.trans hl, h₅⟩

end CommandLine

end DeskCalculator
