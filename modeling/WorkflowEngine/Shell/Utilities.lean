import WorkflowEngine.Shell.Session

/-!
# The utilities of a shell

A utility gets its arguments and works on the state of the shell that calls it; it ends with a status,
which is zero when all went well.

* **`Utility`** — the type.
* **`utility?`** — the utility with a name.
-/

namespace WorkflowEngine.Shell

open Text (Bytes)

/-- A utility. -/
abbrev Utility := List String → Session → Nat × Session

/-! ## Output -/

/-- The character with a number, taken as a byte. -/
def byteChar (n : Nat) : Char := Char.ofNat (n % 256)

/-- The number of some octal digits. -/
def octalValue (cs : List Char) : Nat := cs.foldl (fun n c => 8 * n + (c.toNat - '0'.toNat)) 0

/-- Whether a character is an octal digit. -/
def isOctal (c : Char) : Bool := '0' ≤ c && c ≤ '7'

/-- The character that a letter behind a backslash stands for. -/
def controlFor? (c : Char) : Option Char :=
  match c with
  | 'a' => some (Char.ofNat 7)
  | 'b' => some (Char.ofNat 8)
  | 'f' => some (Char.ofNat 12)
  | 'n' => some '\n'
  | 'r' => some '\r'
  | 't' => some '\t'
  | 'v' => some (Char.ofNat 11)
  | '\\' => some '\\'
  | _ => none

/-- A text with its escapes carried out, and whether it ends the output; `zero` tells whether an
octal number opens with a zero. -/
def unescape (zero : Bool) : Nat → List Char → List Char × Bool
  | 0, cs => (cs, false)
  | _, [] => ([], false)
  | _ + 1, '\\' :: 'c' :: _ => ([], true)
  | fuel + 1, '\\' :: c :: rest =>
    match controlFor? c with
    | some d =>
      let (more, stops) := unescape zero fuel rest
      (d :: more, stops)
    | none =>
      if (zero && c = '0') || (!zero && isOctal c) then
        let digits := ((if zero then rest else c :: rest).take 3).takeWhile isOctal
        let rest := (if zero then rest else c :: rest).drop digits.length
        let (more, stops) := unescape zero fuel rest
        (byteChar (octalValue digits) :: more, stops)
      else
        let (more, stops) := unescape zero fuel rest
        ('\\' :: c :: more, stops)
  | fuel + 1, c :: rest =>
    let (more, stops) := unescape zero fuel rest
    (c :: more, stops)

/-- Writes the arguments on a line. -/
def echo : Utility := fun args s =>
  let (args, closes) := match args with
    | "-n" :: args => (args, false)
    | args => (args, true)
  let line := (" ".intercalate args).toList
  let (out, stops) := unescape true (line.length + 1) line
  (0, s.say (String.ofList (out ++ (if closes && !stops then ['\n'] else []))))

/-- A whole number at the start of a text. -/
def leadingInt (text : String) : Int :=
  match text.toList with
  | '-' :: rest => -((String.ofList (rest.takeWhile Char.isDigit)).toNat?.getD 0 : Nat)
  | '+' :: rest => ((String.ofList (rest.takeWhile Char.isDigit)).toNat?.getD 0 : Nat)
  | cs => ((String.ofList (cs.takeWhile Char.isDigit)).toNat?.getD 0 : Nat)

/-- A text that is filled up with blanks to a width. -/
def padded (left : Bool) (width : Nat) (filler : Char) (text : String) : List Char :=
  let fill := List.replicate (width - text.length) filler
  if left then text.toList ++ List.replicate (width - text.length) ' ' else fill ++ text.toList

/-- The text of an argument for a letter of a format. -/
def formatted (letter : Char) (arg : String) : String :=
  match letter with
  | 'c' => String.ofList (arg.toList.take 1)
  | 'b' => String.ofList (unescape true (arg.length + 1) arg.toList).1
  | 's' => arg
  | 'x' => String.ofList (Nat.toDigits 16 (leadingInt arg).toNat)
  | 'o' => String.ofList (Nat.toDigits 8 (leadingInt arg).toNat)
  | _ => toString (leadingInt arg)

/-- One pass over a format: the output and the arguments that are left. -/
def formatOnce : Nat → List Char → List String → List Char × List String
  | 0, _, args => ([], args)
  | _, [], args => ([], args)
  | fuel + 1, '%' :: '%' :: rest, args =>
    let (out, args) := formatOnce fuel rest args
    ('%' :: out, args)
  | fuel + 1, '%' :: rest, args =>
    let left := rest.head? = some '-'
    let rest := if left then rest.tail else rest
    let filler := if rest.head? = some '0' then '0' else ' '
    let digits := rest.takeWhile Char.isDigit
    let width := (String.ofList digits).toNat?.getD 0
    match rest.drop digits.length with
    | letter :: rest =>
      let text := formatted letter (args.headD "")
      let (out, args) := formatOnce fuel rest args.tail
      (padded left width filler text ++ out, args)
    | [] => (['%'], args)
  | fuel + 1, c :: rest, args =>
    let (out, args) := formatOnce fuel rest args
    (c :: out, args)

/-- Passes over a format until no argument is left. -/
def formatAll (format : List Char) : Nat → List String → List Char
  | 0, _ => []
  | fuel + 1, args =>
    let (out, rest) := formatOnce (format.length + 1) format args
    if rest.isEmpty || rest.length = args.length then out else out ++ formatAll format fuel rest

/-- Writes arguments as a format says. -/
def printf : Utility := fun args s =>
  match args with
  | [] => (2, s.complain "sh: 1: printf: usage: printf format [arg ...]")
  | format :: args =>
    let (cs, _) := unescape false (format.length + 1) format.toList
    (0, s.say (String.ofList (formatAll cs (args.length + 1) args)))

/-! ## Input -/

/-- The bytes of the files that are named, or of the standard input, with their names. -/
def readInputs (name : String) : List String → Session → Nat × List (String × Bytes) × Session
  | [], s => (0, [], s)
  | "-" :: rest, s =>
    let (bytes, s) := s.take
    let (status, more, s) := readInputs name rest s
    (status, ("-", bytes) :: more, s)
  | path :: rest, s =>
    match s.files.read path with
    | .ok bytes =>
      let (status, more, s) := readInputs name rest s
      (status, (path, bytes) :: more, s)
    | .error e =>
      let s := s.complain (name ++ ": " ++ path ++ ": " ++ e.reason)
      let (_, more, s) := readInputs name rest s
      (1, more, s)

/-- The inputs of a utility that reads the standard input when it is given no file. -/
def inputsOf (name : String) (files : List String) (s : Session) :
    Nat × List (String × Bytes) × Session :=
  readInputs name (if files.isEmpty then ["-"] else files) s

/-- The arguments that are options, as single letters, and the others. -/
def options : List String → List Char × List String
  | [] => ([], [])
  | "--" :: rest => ([], rest)
  | arg :: rest =>
    let (letters, files) := options rest
    match arg.toList with
    | '-' :: c :: cs => (c :: cs ++ letters, files)
    | _ => (letters, arg :: files)

/-- Writes all inputs one after the other. -/
def cat : Utility := fun args s =>
  let (_, files) := options args
  let (status, inputs, s) := inputsOf "cat" files s
  (status, s.write 1 (inputs.flatMap (·.2)))

/-- The number of words of some bytes. -/
def wordCount (bytes : Bytes) : Nat :=
  let isBlank (b : UInt8) : Bool := b == 32 || (9 ≤ b && b ≤ 13)
  ((bytes.splitOnP isBlank).filter (· ≠ [])).length

/-- The counts of some bytes that are asked for. -/
def counts (letters : List Char) (bytes : Bytes) : List Nat :=
  let letters := if letters.isEmpty then ['l', 'w', 'c'] else letters
  (if letters.contains 'l' then [bytes.count 10] else [])
    ++ (if letters.contains 'w' then [wordCount bytes] else [])
    ++ (if letters.contains 'm' then [(Text.decodeLossy bytes).length] else [])
    ++ (if letters.contains 'c' then [bytes.length] else [])

/-- Counts lines, words, characters and bytes. -/
def wc : Utility := fun args s =>
  let (letters, files) := options args
  let (status, inputs, s) := inputsOf "wc" files s
  let rows := inputs.map fun (name, bytes) => (counts letters bytes, name)
  let all := inputs.flatMap (·.2)
  let rows := if 1 < files.length then rows ++ [(counts letters all, "total")] else rows
  let width :=
    if inputs.length ≤ 1 && (counts letters []).length ≤ 1 then 1
    else if files.isEmpty || files.contains "-" then 7
    else (toString all.length).length
  let line := fun ((numbers, name) : List Nat × String) =>
    " ".intercalate (numbers.map fun n => String.ofList (padded false width ' ' (toString n)))
      ++ (if files.isEmpty then "" else " " ++ name) ++ "\n"
  (status, s.say (String.join (rows.map line)))

/-- The lines of a text, each without its end. -/
def linesOf (text : String) : List String :=
  let pieces := Path.splitAt '\n' text
  if pieces.getLast? = some "" then pieces.dropLast else pieces

/-- Some lines as a text. -/
def unlines (lines : List String) : String := String.join (lines.map (· ++ "\n"))

/-- A utility that makes lines of the lines of its inputs. -/
def lineFilter (name : String) (f : List Char → List String → List String) : Utility :=
  fun args s =>
    let (letters, files) := options args
    let (status, inputs, s) := inputsOf name files s
    let text := Text.decodeLossy (inputs.flatMap (·.2))
    (status, s.say (unlines (f letters (linesOf text))))

/-- Order of lines: by their numbers first when asked, then as texts. -/
def lineLe (numeric : Bool) (a b : String) : Bool :=
  if numeric && leadingInt a ≠ leadingInt b then leadingInt a < leadingInt b else a ≤ b

/-- Drops lines that are equal to the line before. -/
def dropRepeated : List String → List String
  | a :: b :: rest => if a = b then dropRepeated (b :: rest) else a :: dropRepeated (b :: rest)
  | lines => lines

/-- Sorts lines. -/
def sortLines (letters : List Char) (lines : List String) : List String :=
  let sorted := lines.mergeSort (lineLe (letters.contains 'n'))
  let sorted := if letters.contains 'u' then dropRepeated sorted else sorted
  if letters.contains 'r' then sorted.reverse else sorted

/-- A number of lines that is asked for, and the other arguments. -/
def lineNumber : List String → Nat × List String
  | "-n" :: n :: rest => (n.toNat?.getD 10, rest)
  | arg :: rest =>
    match arg.toList with
    | '-' :: 'n' :: cs => ((String.ofList cs).toNat?.getD 10, rest)
    | '-' :: cs =>
      match (String.ofList cs).toNat? with
      | some n => (n, rest)
      | none => (10, arg :: rest)
    | _ => (10, arg :: rest)
  | [] => (10, [])

/-- The first lines of an input. -/
def head : Utility := fun args s =>
  let (n, args) := lineNumber args
  lineFilter "head" (fun _ lines => lines.take n) args s

/-- The last lines of an input. -/
def tail : Utility := fun args s =>
  let (n, args) := lineNumber args
  lineFilter "tail" (fun _ lines => lines.drop (lines.length - n)) args s

/-- The characters of a set, in which a hyphen stands for those between two. -/
def characterSet : List Char → List Char
  | a :: '-' :: b :: rest =>
    (List.range (b.toNat + 1 - a.toNat)).map (fun i => Char.ofNat (a.toNat + i))
      ++ characterSet rest
  | '\\' :: c :: rest => (controlFor? c).getD c :: characterSet rest
  | c :: rest => c :: characterSet rest
  | [] => []

/-- The characters of a set, which may be a class. -/
def setOf (text : String) : List Char :=
  match text with
  | "[:lower:]" => characterSet "a-z".toList
  | "[:upper:]" => characterSet "A-Z".toList
  | "[:digit:]" => characterSet "0-9".toList
  | "[:space:]" => [' ', '\t', '\n', Char.ofNat 11, Char.ofNat 12, '\r']
  | other => characterSet other.toList

/-- The character that stands for another one. -/
def replaced (source target : List Char) (c : Char) : Char :=
  match source.findIdx? (· = c) with
  | some i => (target[i]?).getD (target.getLastD c)
  | none => c

/-- Replaces or deletes characters. -/
def tr : Utility := fun args s =>
  let (bytes, s) := s.take
  let cs := (Text.decodeLossy bytes).toList
  match args with
  | ["-d", set] =>
    let unwanted := setOf set
    (0, s.say (String.ofList (cs.filter fun c => !unwanted.contains c)))
  | [source, target] =>
    (0, s.say (String.ofList (cs.map (replaced (setOf source) (setOf target)))))
  | _ => (1, s.complain "tr: missing operand")

/-- Writes the input to files and to the output. -/
def tee : Utility := fun args s =>
  let (letters, files) := options args
  let (bytes, s) := s.take
  let s := files.foldl (fun s path =>
    match s.openOutput path (letters.contains 'a') with
    | .ok (channel, s) =>
      let back := s.channel 3
      ((s.connect 3 channel).write 3 bytes).connect 3 back
    | .error _ => s) s
  (0, s.write 1 bytes)

/-! ## Files -/

/-- Applies a change to each path and complains where it is refused. -/
def changeEach (complaint : String → FileError → String)
    (change : FileTree → String → Except FileError FileTree) : Utility := fun paths s =>
  paths.foldl (fun (status, s) path =>
    match change s.files path with
    | .ok files => (status, { s with files })
    | .error e => (1, s.complain (complaint path e))) (0, s)

/-- Makes files that are missing. -/
def touch : Utility := fun args s =>
  changeEach (fun path e => "touch: cannot touch '" ++ path ++ "': " ++ e.reason)
    (fun files path =>
      if files.exists? path then .ok files else files.overwrite path []) (options args).2 s

/-- Makes directories. -/
def mkdir : Utility := fun args s =>
  let (letters, paths) := options args
  changeEach
    (fun path e => "mkdir: cannot create directory '" ++ path ++ "': " ++ e.reason)
    (fun files path =>
      if letters.contains 'p' then
        match files.makeDirectories path with
        | (.ok (), files) => .ok files
        | (.error e, _) => .error e
      else files.makeDirectory path) paths s

/-- The tree without a node and those below it. -/
def without (files : FileTree) (place : Place) : FileTree :=
  { files with nodes := files.nodes.filter fun (p, _) => !place.isPrefixOf p }

/-- Removes files, and directories when asked. -/
def rm : Utility := fun args s =>
  let (letters, paths) := options args
  let whole := letters.contains 'r' || letters.contains 'R'
  changeEach (fun path e => "rm: cannot remove '" ++ path ++ "': " ++ e.reason)
    (fun files path =>
      match files.locate path with
      | .error e => if letters.contains 'f' then .ok files else .error e
      | .ok place =>
        if files.isDirectoryAt place && !whole then .error .isDirectory
        else .ok (without files place)) paths s

/-- The path that a file gets when it is put somewhere. -/
def destinationOf (files : FileTree) (source destination : String) : String :=
  if files.isDirectory destination then
    Path.join destination ((Path.fileName? source).getD source)
  else destination

/-- Copies files. -/
def cp : Utility := fun args s =>
  let paths := (options args).2
  match paths.getLast? with
  | none => (1, s.complain "cp: missing file operand")
  | some destination =>
    changeEach (fun path e => "cp: cannot copy '" ++ path ++ "': " ++ e.reason)
      (fun files source => do
        let bytes ← files.read source
        files.overwrite (destinationOf files source destination) bytes) paths.dropLast s

/-- Moves files. -/
def mv : Utility := fun args s =>
  let paths := (options args).2
  match paths.getLast? with
  | none => (1, s.complain "mv: missing file operand")
  | some destination =>
    changeEach (fun path e => "mv: cannot move '" ++ path ++ "': " ++ e.reason)
      (fun files source => do
        let bytes ← files.read source
        let place ← files.locate source
        (without files place).overwrite (destinationOf files source destination) bytes)
      paths.dropLast s

/-- The names that a listing of a path shows. -/
def listed (files : FileTree) (hidden : Bool) (path : String) : Except FileError (List String) := do
  let place ← files.locate path
  if files.isDirectoryAt place then
    let names := (files.children place).mergeSort fun a b => decide (a ≤ b)
    let names := if hidden then "." :: ".." :: names else names
    return names.filter fun name => hidden || name.toList.head? ≠ some '.'
  else return [path]

/-- Lists directories. -/
def ls : Utility := fun args s =>
  let (letters, paths) := options args
  let hidden := letters.contains 'a'
  (if paths.isEmpty then ["."] else paths).foldl (fun (status, s) path =>
    match listed s.files hidden path with
    | .ok names =>
      let head := if 1 < paths.length && s.files.isDirectory path then path ++ ":\n" else ""
      (status, s.say (head ++ unlines names))
    | .error e =>
      (2, s.complain ("ls: cannot access '" ++ path ++ "': " ++ e.reason))) (0, s)

/-! ## Names, variables and time -/

/-- The last name of a path, without an ending when one is given. -/
def basename : Utility := fun args s =>
  match args with
  | path :: more =>
    let name := (Path.fileName? path).getD path
    let ending := more.headD ""
    let cut := name.toList.take (name.length - ending.length)
    let shown := if name ≠ ending && name.endsWith ending then String.ofList cut else name
    (0, s.say (shown ++ "\n"))
  | [] => (1, s.complain "basename: missing operand")

/-- The directory of a path. -/
def dirname : Utility := fun args s =>
  match args with
  | path :: _ =>
    let above := (Path.parent? path).getD "/"
    (0, s.say ((if above = "" then "." else above) ++ "\n"))
  | [] => (1, s.complain "dirname: missing operand")

/-- Writes the values of variables that commands see. -/
def printenv : Utility := fun args s =>
  if args.isEmpty then (0, s.say (unlines (s.environment.map fun (n, v) => n ++ "=" ++ v)))
  else
    let found := args.filterMap fun name => List.lookup name s.environment
    (if found.length = args.length then 0 else 1, s.say (unlines found))

/-- The numbers up to a last one. -/
def seq : Utility := fun args s =>
  let numbers := args.map leadingInt
  let (first, last) := match numbers with
    | [last] => (1, last)
    | first :: last :: _ => (first, last)
    | [] => (1, 0)
  let shown := (List.range (last + 1 - first).toNat).map fun (i : Nat) => toString (first + (i : Int))
  (0, s.say (unlines shown))

/-- The nanoseconds of a duration of `sleep`. -/
def sleepTime? (text : String) : Option Nat :=
  let cs := text.toList
  let whole := cs.takeWhile Char.isDigit
  let (fraction, suffix) := match cs.drop whole.length with
    | '.' :: rest => (rest.takeWhile Char.isDigit, rest.dropWhile Char.isDigit)
    | rest => ([], rest)
  let unit := match suffix with
    | [] => some 1
    | ['s'] => some 1
    | ['m'] => some 60
    | ['h'] => some 3600
    | ['d'] => some 86400
    | _ => none
  let digits := (String.ofList (whole ++ fraction)).toNat?
  match digits, unit with
  | some n, some u => some (n * u * 1000000000 / Nat.pow 10 fraction.length)
  | _, _ => none

/-- Lets time pass. -/
def sleep : Utility := fun args s =>
  match args.mapM sleepTime? with
  | some (t :: ts) => (0, { s with elapsed := (t :: ts).foldl (· + ·) s.elapsed })
  | _ =>
    (1, (s.complain ("sleep: invalid time interval '" ++ " ".intercalate args ++ "'")).complain
      "Try 'sleep --help' for more information.")

/-! ## Tests -/

/-- The result of a test without negation, unless it has no meaning. -/
def testPlain (s : Session) : List String → Option Bool
  | [] => some false
  | [text] => some (text ≠ "")
  | ["-n", text] => some (text ≠ "")
  | ["-z", text] => some (text = "")
  | ["-e", path] => some (s.files.exists? path)
  | ["-f", path] => some (s.files.isFile path)
  | ["-d", path] => some (s.files.isDirectory path)
  | ["-r", path] => some (s.files.exists? path)
  | ["-s", path] => some (((s.files.read path).toOption).any (· ≠ []))
  | [a, "=", b] => some (a = b)
  | [a, "!=", b] => some (a ≠ b)
  | [a, "-eq", b] => some (leadingInt a = leadingInt b)
  | [a, "-ne", b] => some (leadingInt a ≠ leadingInt b)
  | [a, "-lt", b] => some (leadingInt a < leadingInt b)
  | [a, "-le", b] => some (leadingInt a ≤ leadingInt b)
  | [a, "-gt", b] => some (leadingInt b < leadingInt a)
  | [a, "-ge", b] => some (leadingInt b ≤ leadingInt a)
  | _ => none

/-- Tests a condition. -/
def test : Utility := fun args s =>
  let result := match args with
    | ["!"] => some true
    | "!" :: rest => (testPlain s rest).map (!·)
    | args => testPlain s args
  match result with
  | some true => (0, s)
  | some false => (1, s)
  | none => (2, s.complain "sh: 1: test: unexpected operator")

/-- Tests a condition in brackets. -/
def bracketTest : Utility := fun args s =>
  if args.getLast? = some "]" then test args.dropLast s
  else (2, s.complain "sh: 1: [: missing ]")

/-! ## The utilities by name -/

/-- A utility that does nothing and ends with a status. -/
def idle (status : Nat) : Utility := fun _ s => (status, s)

/-- The utilities. -/
def utilities : List (String × Utility) :=
  [(":", idle 0), ("true", idle 0), ("false", idle 1), ("echo", echo), ("printf", printf),
    ("cat", cat), ("wc", wc), ("sort", lineFilter "sort" sortLines),
    ("uniq", lineFilter "uniq" fun _ => dropRepeated),
    ("rev", lineFilter "rev" fun _ lines =>
      lines.map fun l => String.ofList l.toList.reverse),
    ("tac", lineFilter "tac" fun _ => List.reverse),
    ("head", head), ("tail", tail), ("tr", tr), ("tee", tee), ("touch", touch),
    ("mkdir", mkdir), ("rm", rm), ("cp", cp), ("mv", mv), ("ls", ls), ("basename", basename),
    ("dirname", dirname), ("printenv", printenv), ("seq", seq), ("sleep", sleep), ("test", test),
    ("[", bracketTest), ("wait", idle 0)]

/-- The directories of the utilities. -/
def utilityDirectories : List String := ["/bin/", "/usr/bin/"]

/-- The name of a utility that may be given with its directory. -/
def utilityName (command : String) : String :=
  match utilityDirectories.find? fun (d : String) => d.toList.isPrefixOf command.toList with
  | some d => String.ofList (command.toList.drop d.length)
  | none => command

/-- The utility with a name. -/
def utility? (command : String) : Option Utility := utilities.lookup (utilityName command)

end WorkflowEngine.Shell
