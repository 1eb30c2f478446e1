import Mathlib
import WorkflowEngine.Proofs.Outcomes
import WorkflowEngine.Proofs.Placeholders
import WorkflowEngine.Shell.Lexeme
import WorkflowEngine.Tool.Prepared

/-!
# How a shell reads command lines

A tool that asks for no shell gets every word of its command line between quotation marks.  A shell
reads the line back word for word, whatever characters the words hold: nothing of a value becomes an
operator, an expansion, or a part of another word.

**Words.**  `textsOf` says which words a value becomes, before they are quoted; `render_false` shows
that the words on the command line are these, each of them quoted.

**Reading.**  `ReadsAs` ties a text to its lexemes wherever it stands between blanks.  A quoted word is
one word of quoted characters (`readsAs_quote`), and texts behind each other are read one by one
(`ReadsAs.append`, `readsAs_intercalate`).

**Command lines.**  `assembled_line_read_back`, for every tool, all bound values and all results of
expressions.
-/

namespace WorkflowEngine.CommandLine

open Document (Argument DataType Input InputBinding Process)
open Shell (Lexeme Reader)

/-! ## Words -/

/-- A text behind the leader of its binding. -/
def ledTexts (binding : InputBinding) (text : String) : List String :=
  match binding.leader with
  | some leader => if binding.separate then [leader, text] else [leader ++ text]
  | none => [text]

/-- The text of an item of an array whose items have no binding. -/
def itemTexts (item : Value) : Outcome (List String) :=
  if item.isNull then .ok [] else (wordOf item).map fun text => [text]

mutual

/-- The words that a value becomes, before they are quoted. -/
def textsOf (binding : InputBinding) (declared : Option DataType) : Value → Outcome (List String)
  | .null => .ok []
  | .bool b => .ok (if b then binding.leader.toList else [])
  | .array items =>
    if items.isEmpty then .ok []
    else
      match binding.itemSeparator with
      | some separator => (items.mapM wordOf).map fun texts =>
        ledTexts binding (separator.intercalate texts)
      | none =>
        match itemDeclaration declared with
        | (type, some nested) => (textsOfItems nested type items).map (binding.leader.toList ++ ·)
        | (_, none) => (items.mapM itemTexts).map fun texts => binding.leader.toList ++ texts.flatten
  | .record _ =>
    .error (.notImplemented .commandAssembler
      "record values cannot be bound to the command line")
  | .int n => (wordOf (.int n)).map (ledTexts binding)
  | .float x => (wordOf (.float x)).map (ledTexts binding)
  | .str s => (wordOf (.str s)).map (ledTexts binding)
  | .file f => (wordOf (.file f)).map (ledTexts binding)
  | .directory d => (wordOf (.directory d)).map (ledTexts binding)

/-- The words of the items of an array, each under the same binding. -/
def textsOfItems (binding : InputBinding) (declared : Option DataType) :
    List Value → Outcome (List String)
  | [] => .ok []
  | item :: rest => do
    let texts ← textsOf binding declared item
    return texts ++ (← textsOfItems binding declared rest)

end

@[simp] lemma wordIn_false (binding : InputBinding) (word : String) :
    wordIn false binding word = quote word := rfl

lemma leaderWords_false (binding : InputBinding) :
    leaderWords false binding = binding.leader.toList.map quote := rfl

lemma led_false (binding : InputBinding) (text : String) :
    led false binding text = (ledTexts binding text).map quote := by
  unfold led ledTexts
  cases binding.leader with
  | none => rfl
  | some leader => cases binding.separate <;> rfl

lemma itemWords_false (binding : InputBinding) (item : Value) :
    itemWords false binding item = (itemTexts item).map (List.map quote) := by
  unfold itemWords itemTexts
  split_ifs
  · rfl
  · cases wordOf item <;> rfl

lemma scalar_false (binding : InputBinding) (value : Outcome String) :
    value.map (led false binding) = (value.map (ledTexts binding)).map (List.map quote) := by
  cases value with
  | error failure => rfl
  | ok text => exact congrArg Except.ok (led_false binding text)

mutual

/-- **Every word of a value is quoted** when the tool asks for no shell. -/
theorem render_false (binding : InputBinding) (declared : Option DataType) : ∀ value : Value,
    render false binding declared value = (textsOf binding declared value).map (List.map quote)
  | .null => by rw [render, textsOf]; rfl
  | .bool b => by
      rw [render, textsOf]
      cases b
      · rfl
      · exact congrArg Except.ok (leaderWords_false binding)
  | .array items => by
      rw [render, textsOf]
      split_ifs
      · rfl
      · cases binding.itemSeparator with
        | some separator =>
            dsimp only
            cases items.mapM wordOf with
            | error failure => rfl
            | ok texts => exact congrArg Except.ok (led_false binding _)
        | none =>
            obtain ⟨type, nested?⟩ := itemDeclaration declared
            cases nested? with
            | some nested =>
                dsimp only
                rw [renderItems_false nested type items]
                cases textsOfItems nested type items with
                | error failure => rfl
                | ok texts => simp [Except.map, leaderWords_false, bind, Except.bind, pure, Except.pure]
            | none =>
                dsimp only
                rw [mapM_map fun item _ => itemWords_false binding item]
                cases items.mapM itemTexts with
                | error failure => rfl
                | ok texts =>
                    simp [Except.map, leaderWords_false, bind, Except.bind, pure, Except.pure]
  | .record _ => by rw [render, textsOf]; rfl
  | .int n => by rw [render, textsOf, scalar_false]
  | .float x => by rw [render, textsOf, scalar_false]
  | .str s => by rw [render, textsOf, scalar_false]
  | .file f => by rw [render, textsOf, scalar_false]
  | .directory d => by rw [render, textsOf, scalar_false]

lemma renderItems_false (binding : InputBinding) (declared : Option DataType) :
    ∀ items : List Value, renderItems false binding declared items =
      (textsOfItems binding declared items).map (List.map quote)
  | [] => by rw [renderItems, textsOfItems]; rfl
  | item :: rest => by
      rw [renderItems, textsOfItems, render_false binding declared item,
        renderItems_false binding declared rest]
      cases textsOf binding declared item with
      | error failure => rfl
      | ok texts =>
          cases textsOfItems binding declared rest with
          | error failure => rfl
          | ok others => simp [Except.map, bind, Except.bind, pure, Except.pure]

end

/-! ## Fragments -/

/-- A fragment with its words quoted. -/
def Fragment.quoted (fragment : Fragment) : Fragment :=
  { fragment with words := fragment.words.map quote }

/-- The fragment of an argument, before its words are quoted. -/
def argumentTexts (interpreter : Interpreter) (context : ExprContext) (index : Nat)
    (argument : Argument) : Outcome Fragment := do
  let value ← match argument.literal.or argument.binding.valueFrom with
    | some expression => ExprFault.orFail (evaluate interpreter expression context)
    | none => pure .null
  let words ← textsOf argument.binding none value
  return ⟨argument.binding.position, .argument index, words⟩

/-- The fragments of the arguments, counted from `index`. -/
def argumentsTexts (interpreter : Interpreter) (context : ExprContext) :
    Nat → List Argument → Outcome (List Fragment)
  | _, [] => .ok []
  | index, argument :: rest => do
    let fragment ← argumentTexts interpreter context index argument
    return fragment :: (← argumentsTexts interpreter context (index + 1) rest)

/-- The fragment of an input, before its words are quoted, if it has a binding. -/
def inputTexts? (provided : Values) (input : Input) : Outcome (Option Fragment) :=
  match input.binding with
  | none => .ok none
  | some binding => do
    let value := (provided.find? input.id).getD .null
    let words ← textsOf binding (some input.type.nonNull) value
    return some ⟨binding.position, .input input.id, words⟩

/-- The fragments of a command line in their order, before their words are quoted. -/
def fragmentTexts (interpreter : Interpreter) (process : Process) (line : Document.CommandLine)
    (provided : Values) (context : ExprContext) : Outcome (List Fragment) := do
  let arguments ← argumentsTexts interpreter context 0 line.arguments
  let inputs ← process.inputs.mapM (inputTexts? provided)
  return (arguments ++ inputs.filterMap id).mergeSort Fragment.le

variable {interpreter : Interpreter}

lemma argumentFragment_false (context : ExprContext) (index : Nat) (argument : Argument) :
    argumentFragment interpreter false context index argument =
      (argumentTexts interpreter context index argument).map Fragment.quoted := by
  have hvalue (value : Value) :
      (do return ⟨argument.binding.position, .argument index,
        ← render false argument.binding none value⟩ : Outcome Fragment) =
      (do return ⟨argument.binding.position, .argument index,
        ← textsOf argument.binding none value⟩ : Outcome Fragment).map Fragment.quoted := by
    rw [render_false, map_bind_ok, bind_map_ok]
    rfl
  unfold argumentFragment argumentTexts
  dsimp only
  cases argument.literal.or argument.binding.valueFrom with
  | none => exact hvalue .null
  | some expression =>
      dsimp only
      rw [map_bind_ok]
      exact congrArg _ (funext hvalue)

lemma argumentFragments_false (context : ExprContext) : ∀ (index : Nat) (arguments : List Argument),
    argumentFragments interpreter false context index arguments =
      (argumentsTexts interpreter context index arguments).map (List.map Fragment.quoted)
  | _, [] => rfl
  | index, argument :: rest => by
      rw [argumentFragments, argumentsTexts, argumentFragment_false,
        argumentFragments_false context (index + 1) rest]
      cases argumentTexts interpreter context index argument with
      | error failure => rfl
      | ok fragment => cases argumentsTexts interpreter context (index + 1) rest <;> rfl

lemma inputFragment?_false (provided : Values) (input : Input) :
    inputFragment? false provided input =
      (inputTexts? provided input).map (Option.map Fragment.quoted) := by
  unfold inputFragment? inputTexts?
  cases input.binding with
  | none => rfl
  | some binding =>
      dsimp only
      rw [render_false, map_bind_ok, bind_map_ok]
      rfl

lemma inputFragments_false (provided : Values) (inputs : List Input) :
    inputFragments false provided inputs =
      (inputs.mapM (inputTexts? provided)).map fun fragments =>
        (fragments.filterMap id).map Fragment.quoted := by
  rw [inputFragments, mapM_map fun input _ => inputFragment?_false provided input]
  cases inputs.mapM (inputTexts? provided) with
  | error failure => rfl
  | ok fragments =>
      simp [Except.map, bind, Except.bind, pure, Except.pure, List.filterMap_map, List.map_filterMap]

/-- Quoting leaves the fragments in their order. -/
lemma mergeSort_quoted (fragments : List Fragment) :
    (fragments.map Fragment.quoted).mergeSort Fragment.le =
      (fragments.mergeSort Fragment.le).map Fragment.quoted :=
  (List.map_mergeSort (f := Fragment.quoted) fun _ _ _ _ => rfl).symm

lemma flatMap_quoted (fragments : List Fragment) :
    (fragments.map Fragment.quoted).flatMap (·.words) =
      (fragments.flatMap (·.words)).map quote := by
  induction fragments with
  | nil => rfl
  | cons fragment rest ih =>
      rw [List.map_cons, List.flatMap_cons, ih, List.flatMap_cons, List.map_append]
      rfl

/-- **The words of a command line are its texts, each of them quoted**, and then the operators with
their files. -/
theorem words_of_assemble {process : Process} {line : Document.CommandLine} {provided : Values}
    {context : ExprContext} {command : Command}
    (h : assemble interpreter process line provided context false = .ok command) :
    ∃ fragments, fragmentTexts interpreter process line provided context = .ok fragments ∧
      command.words = (line.baseCommand ++ fragments.flatMap (·.words)).map quote
        ++ redirection "1>>" command.stdout ++ redirection "2>>" command.stderr := by
  rw [assemble, argumentFragments_false, inputFragments_false] at h
  obtain ⟨_, ha, h⟩ := bind_eq_ok.mp h
  obtain ⟨arguments, harguments, rfl⟩ := map_eq_ok_iff.mp ha
  obtain ⟨_, hi, h⟩ := bind_eq_ok.mp h
  obtain ⟨inputs, hinputs, rfl⟩ := map_eq_ok_iff.mp hi
  obtain ⟨stdin, -, h⟩ := bind_eq_ok.mp h
  obtain ⟨stdout, -, h⟩ := bind_eq_ok.mp h
  obtain ⟨stderr, -, h⟩ := bind_eq_ok.mp h
  obtain rfl := Except.ok.inj h
  have hfragments : fragmentTexts interpreter process line provided context =
      .ok ((arguments ++ inputs.filterMap id).mergeSort Fragment.le) := by
    rw [fragmentTexts, harguments, hinputs]
    rfl
  refine ⟨_, hfragments, ?_⟩
  dsimp only
  rw [← List.map_append, mergeSort_quoted, flatMap_quoted, ← List.map_append]

/-! ## Reading -/

/-- The lexeme of a word all of whose characters are quoted. -/
def quotedWord (word : String) : Lexeme := .word [.text word.toList true]

/-- A reader between two lexemes. -/
def between (read : List Lexeme) : Reader := ⟨.blank, [], read⟩

/-- Outside quotation marks a shell does find expansions. -/
example : Shell.lexemes? "echo $(reboot)" =
    some [.word [.text "echo".toList false], .word [.command "reboot" false]] := by decide

/-- A text is read as some lexemes wherever it stands between blanks, and also at the end of a line. -/
structure ReadsAs (text : String) (lexemes : List Lexeme) : Prop where
  blank : ∀ read, (between read).readAll (text.toList ++ [' ']) = between (read ++ lexemes)
  finish : ∀ read, ((between read).readAll text.toList).finish? = some (read ++ lexemes)

lemma readAll_cons (r : Reader) (c : Char) (cs : List Char) :
    r.readAll (c :: cs) = (r.step c).readAll cs := rfl

lemma quotation_ne {c : Char} (h : isSpecial c = false) :
    c ≠ Shell.quotationMark ∧ c ≠ '\\' ∧ c ≠ '$' ∧ c ≠ Shell.graveAccent := by
  refine ⟨?_, ?_, ?_, ?_⟩ <;>
    · rintro rfl
      exact absurd h (by decide)

/-- The characters that get a backslash are those before which a shell takes one away. -/
lemma isEscapable_eq_isSpecial (c : Char) : Shell.isEscapable c = isSpecial c := by
  cases h : isSpecial c with
  | false =>
      obtain ⟨hq, hb, hd, hg⟩ := quotation_ne h
      simp [Shell.isEscapable, hq, hb, hd, hg]
  | true =>
      have hnat (k : Nat) (hk : k.isValidChar) (hc : c.toNat = k) : c = Char.ofNat k := by
        rw [← hc, Char.ofNat_toNat]
      simp only [isSpecial, Bool.or_eq_true, beq_iff_eq] at h
      rcases h with ((rfl | h) | rfl) | h
      · decide
      · rw [hnat 34 (by decide) h]
        decide
      · decide
      · rw [hnat 96 (by decide) h]
        decide

/-- A quoted character is read as itself. -/
lemma readAll_quoteChar (chars : List Char) (read : List Lexeme) (c : Char) :
    (⟨.double, [.text chars true], read⟩ : Reader).readAll (quoteChar c) =
      ⟨.double, [.text (chars ++ [c]) true], read⟩ := by
  have hescaped : (⟨.doubleEscaped, [.text chars true], read⟩ : Reader).step c =
      if isSpecial c then ⟨.double, [.text (chars ++ [c]) true], read⟩
      else (⟨.doubleEscaped, [.text chars true], read⟩ : Reader).step c := by
    split_ifs with h
    · rw [← isEscapable_eq_isSpecial] at h
      simp [Reader.step, h, Reader.add, Reader.goto, Shell.addChar]
    · rfl
  unfold quoteChar
  cases h : isSpecial c with
  | true =>
      have hbackslash : (⟨.double, [.text chars true], read⟩ : Reader).step '\\' =
          ⟨.doubleEscaped, [.text chars true], read⟩ := rfl
      rw [if_pos rfl, readAll_cons, hbackslash, readAll_cons, hescaped, if_pos h]
      rfl
  | false =>
      obtain ⟨hq, hb, hd, hg⟩ := quotation_ne h
      rw [if_neg (by simp), readAll_cons]
      simp [Reader.step, Reader.inDouble, hq, hb, hd, hg, Reader.add, Reader.goto, Shell.addChar,
        Reader.readAll]

/-- **Between quotation marks every character of a word is read as itself.** -/
theorem readAll_flatMap_quoteChar (read : List Lexeme) : ∀ (word chars : List Char),
    (⟨.double, [.text chars true], read⟩ : Reader).readAll (word.flatMap quoteChar) =
      ⟨.double, [.text (chars ++ word) true], read⟩
  | [], chars => by simp [Reader.readAll]
  | c :: rest, chars => by
      rw [List.flatMap_cons, Reader.readAll_append, readAll_quoteChar,
        readAll_flatMap_quoteChar read rest (chars ++ [c])]
      simp

lemma readAll_quote (word : String) (read : List Lexeme) :
    (between read).readAll (quote word).toList = ⟨.word, [.text word.toList true], read⟩ := by
  have hopen : (between read).step quotation = ⟨.double, [.text [] true], read⟩ := rfl
  have hclose (pieces : Shell.Word) : (⟨.double, pieces, read⟩ : Reader).step quotation =
      ⟨.word, pieces, read⟩ := rfl
  rw [quote, String.toList_ofList, readAll_cons, hopen, Reader.readAll_append,
    readAll_flatMap_quoteChar, readAll_cons, hclose, List.nil_append]
  rfl

/-- **A quoted word is read as one word** of quoted characters. -/
theorem readsAs_quote (word : String) : ReadsAs (quote word) [quotedWord word] where
  blank read := by
    rw [Reader.readAll_append, readAll_quote]
    rfl
  finish read := by
    rw [readAll_quote]
    rfl

lemma readsAs_append_stdout : ReadsAs "1>>" [.redirect (some 1) .append] where
  blank _ := rfl
  finish _ := rfl

lemma readsAs_append_stderr : ReadsAs "2>>" [.redirect (some 2) .append] where
  blank _ := rfl
  finish _ := rfl

lemma readsAs_input : ReadsAs "<" [.redirect none .input] where
  blank _ := rfl
  finish read := by
    have hend : ((between read).readAll "<".toList).finish? =
        some (read ++ [Lexeme.redirect none .input] ++ [Lexeme.lineEnd]).dropLast := rfl
    rw [hend, List.dropLast_concat]

lemma readsAs_nil : ReadsAs "" [] where
  blank read := by simp [Reader.readAll, between, Reader.step, Reader.plain, Reader.flush]
  finish read := by simp [Reader.readAll, between, Reader.finish?]

/-- Texts with a blank between them are read one by one. -/
lemma ReadsAs.append {first second : String} {xs ys : List Lexeme} (h : ReadsAs first xs)
    (h' : ReadsAs second ys) : ReadsAs (first ++ " " ++ second) (xs ++ ys) where
  blank read := by
    have hblank : (" " : String).toList = [' '] := rfl
    rw [String.toList_append, String.toList_append, hblank, List.append_assoc, Reader.readAll_append,
      h.blank, h'.blank, List.append_assoc]
  finish read := by
    have hblank : (" " : String).toList = [' '] := rfl
    rw [String.toList_append, String.toList_append, hblank, Reader.readAll_append, h.blank, h'.finish,
      List.append_assoc]

lemma readsAs_intercalate : ∀ {words : List String} {lexemes : List Lexeme},
    List.Forall₂ (fun word lexeme => ReadsAs word [lexeme]) words lexemes →
      ReadsAs (" ".intercalate words) lexemes
  | [], _, h => by
      cases h
      exact readsAs_nil
  | [word], _, h => by
      obtain _ | ⟨hword, _ | _⟩ := h
      rw [String.intercalate_singleton]
      exact hword
  | first :: second :: rest, _, h => by
      obtain _ | ⟨hfirst, hrest⟩ := h
      rw [String.intercalate_cons_cons]
      exact hfirst.append (readsAs_intercalate hrest)

/-! ## Command lines -/

/-- A redirection of a stream to or from a file, as a shell reads it. -/
def redirected (stream : Option Nat) (direction : Shell.Direction) (file : Option String) :
    List Lexeme :=
  match file with
  | some file => [.redirect stream direction, quotedWord file]
  | none => []

lemma forall₂_redirection {operator : String} {stream : Option Nat} {direction : Shell.Direction}
    (h : ReadsAs operator [.redirect stream direction]) (file : Option String) :
    List.Forall₂ (fun word lexeme => ReadsAs word [lexeme]) (redirection operator file)
      (redirected stream direction file) := by
  cases file with
  | none => exact .nil
  | some file => exact .cons h (.cons (readsAs_quote file) .nil)

/-- What a shell reads as some lexemes it also reads so as the whole text. -/
lemma ReadsAs.lexemes {text : String} {lexemes : List Lexeme} (h : ReadsAs text lexemes) :
    Shell.lexemes? text = some lexemes := h.finish []

lemma readsAs_shellText {words : List String} {lexemes : List Lexeme} (stdin : Option String)
    (h : List.Forall₂ (fun word lexeme => ReadsAs word [lexeme]) words lexemes) :
    ReadsAs (shellText words stdin) (lexemes ++ redirected none .input stdin) := by
  cases stdin with
  | none => simpa [shellText, redirected] using readsAs_intercalate h
  | some file =>
      have hwhole := (readsAs_intercalate h).append (readsAs_input.append (readsAs_quote file))
      have htext : shellText words (some file) =
          " ".intercalate words ++ " " ++ ("<" ++ " " ++ quote file) := by
        have hoperator : " < " = " " ++ ("<" ++ " ") := by decide
        simp only [shellText, hoperator, String.append_assoc]
      rwa [htext]

/-- **No word of a command line escapes its quotation marks.**  For a tool that asks for no shell, a
shell reads the text of its command line as the words of the base command and of the fragments in their
order, each a single word of quoted characters, and then as the operators, each followed by its quoted
file: the lexemes hold no expansion, and every character of a value stands in a quoted piece. -/
theorem assembled_line_read_back {process : Process} {line : Document.CommandLine} {provided : Values}
    {context : ExprContext} {command : Command}
    (assembled : assemble interpreter process line provided context false = .ok command)
    {tool : Tool.PreparedTool} (words : tool.words = command.words)
    (stdin : tool.stdin = command.stdin) :
    ∃ fragments, fragmentTexts interpreter process line provided context = .ok fragments ∧
      Shell.lexemes? tool.shellText = some
        ((line.baseCommand ++ fragments.flatMap (·.words)).map quotedWord
          ++ redirected (some 1) .append command.stdout
          ++ redirected (some 2) .append command.stderr
          ++ redirected none .input command.stdin) := by
  obtain ⟨fragments, hfragments, hwords⟩ := words_of_assemble assembled
  refine ⟨fragments, hfragments, ?_⟩
  have hquoted (texts : List String) : List.Forall₂ (fun word lexeme => ReadsAs word [lexeme])
      (texts.map quote) (texts.map quotedWord) := by
    rw [List.forall₂_map_left_iff, List.forall₂_map_right_iff, List.forall₂_same]
    exact fun text _ => readsAs_quote text
  have hline := List.rel_append (List.rel_append
    (hquoted (line.baseCommand ++ fragments.flatMap fun fragment => fragment.words))
    (forall₂_redirection readsAs_append_stdout command.stdout))
    (forall₂_redirection readsAs_append_stderr command.stderr)
  rw [Tool.PreparedTool.shellText, words, stdin, hwords]
  exact (readsAs_shellText command.stdin hline).lexemes

/-- A command line whose words look like quotation marks, operators and expansions. -/
def trickyLine : Document.CommandLine where
  baseCommand := ["echo", "1>>"]
  arguments := [⟨some "a\" ; reboot #", .plain⟩]
  stdin := some "in file"
  stdout := some "\\"
  stderr := none

/-- A tool with an input that goes to its command line. -/
def trickyTool : Process where
  id := "#tricky"
  body := .commandLineTool trickyLine
  inputs := [⟨"x", .any, none, some { InputBinding.plain with leader := some "-x" }, [], false⟩]
  outputs := []
  requirements := []
  hints := []

/-- A value that holds an expansion, and ends a line. -/
def trickyValues : Values := [("x", .str "$(reboot)\n")]

/-- The command line of the tool. -/
def trickyCommand : Command where
  words := ["\"echo\"", "\"1>>\"", "\"a\\\" ; reboot #\"", "\"-x\"", "\"\\$(reboot)\n\"", "1>>",
    "\"\\\\\""]
  stdin := some "in file"
  stdout := some "\\"
  stderr := none

lemma tricky_assembled :
    assemble evaluateJson trickyTool trickyLine trickyValues (.ofInputs []) false = .ok trickyCommand := by
  have hargument : evaluate evaluateJson "a\" ; reboot #" (.ofInputs []) = .ok (.str "a\" ; reboot #") :=
    evaluate_of_plain (by decide) _
  have hstdin : evaluate evaluateJson "in file" (.ofInputs []) = .ok (.str "in file") :=
    evaluate_of_plain (by decide) _
  have hstdout : evaluateString evaluateJson "\\" (.ofInputs []) = .ok "\\" :=
    evaluateString_of_plain (by decide) _
  have harguments : argumentFragments evaluateJson false (.ofInputs []) 0 trickyLine.arguments =
      .ok [⟨0, .argument 0, ["\"a\\\" ; reboot #\""]⟩] := by
    simp only [trickyLine, argumentFragments, argumentFragment, Option.some_or, hargument]
    rfl
  have hinput : inputFile evaluateJson (.ofInputs []) "in file" = .ok "in file" := by
    rw [inputFile, hstdin]
    rfl
  have houtput : captureFile evaluateJson trickyTool .stdout (some "\\") (.ofInputs []) = .ok (some "\\") := by
    rw [captureFile, hstdout]
    rfl
  rw [assemble, harguments]
  simp only [trickyLine, Option.mapM_some, hinput, houtput]
  cbv

/-- The tool as an executor gets it. -/
def trickyPrepared : Tool.PreparedTool :=
  { (default : Tool.PreparedTool) with words := trickyCommand.words, stdin := trickyCommand.stdin }

theorem tricky_line_read_back : ∃ fragments,
    fragmentTexts evaluateJson trickyTool trickyLine trickyValues (.ofInputs []) = .ok fragments ∧
      Shell.lexemes? trickyPrepared.shellText = some
        ((["echo", "1>>"] ++ fragments.flatMap (·.words)).map quotedWord
          ++ redirected (some 1) .append (some "\\") ++ redirected (some 2) .append none
          ++ redirected none .input (some "in file")) :=
  assembled_line_read_back tricky_assembled rfl rfl

end WorkflowEngine.CommandLine
