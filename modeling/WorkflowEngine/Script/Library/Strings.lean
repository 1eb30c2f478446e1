import WorkflowEngine.Script.Convert

/-!
# Methods of strings

* **`stringMethod`** — a method of a string, by its name.
-/

namespace WorkflowEngine.Script.Library

/-- Expands the marks `$$`, `$&`, and `$` with a backquote or an apostrophe, in the text that
replaces a match. -/
def expandMarks (before found after : Units) : Units → Units
  | 36 :: 36 :: rest => 36 :: expandMarks before found after rest
  | 36 :: 38 :: rest => found ++ expandMarks before found after rest
  | 36 :: 96 :: rest => before ++ expandMarks before found after rest
  | 36 :: 39 :: rest => after ++ expandMarks before found after rest
  | u :: rest => u :: expandMarks before found after rest
  | [] => []

/-- The text that replaces a match: the result of a function, or a text with marks. -/
def replacement (call : Caller) (s found : Units) (i : Nat) (v : Val) : Run Units := do
  if ← isCallable v then
    toUnits call (← call v .undefined [.str found, .ofNat i, .str s])
  else
    let text ← toUnits call v
    return expandMarks (s.take i) found (s.drop (i + found.length)) text

/-- Replaces the first match from a position on, or all of them. -/
def replaceFrom (call : Caller) (s found : Units) (v : Val) (all : Bool) :
    Nat → Nat → Run Units
  | 0, start => return s.drop start
  | fuel + 1, start => do
    match s.indexOf found start with
    | none => return s.drop start
    | some i =>
      let text ← replacement call s found i v
      let stop := i + found.length
      let head := s.slice start i ++ text
      if !all then return head ++ s.drop stop
      if found.isEmpty then
        if s.length ≤ i then return head
        return head ++ s.slice i (i + 1) ++ (← replaceFrom call s found v all fuel (i + 1))
      return head ++ (← replaceFrom call s found v all fuel stop)

/-- A filler repeated to a length. -/
def fillTo (filler : Units) (n : Nat) : Units :=
  if filler.isEmpty then []
  else ((List.replicate (n / filler.length + 1) filler).flatten).take n

/-- A method of a string. -/
def stringMethod (call : Caller) (name : String) (s : Units) (args : List Val) : Run Val := do
  let arg := argAt args
  let n := s.length
  match name with
  | "toString" => return .str s
  | "valueOf" => return .str s
  | "toUpperCase" => return .str s.upper
  | "toLowerCase" => return .str s.lower
  | "trim" => return .str s.trim
  | "trimStart" => return .str s.trimStart
  | "trimEnd" => return .str s.trimEnd
  | "charAt" =>
    let i ← toPosition call (arg 0) 0
    return .str (if i < 0 then [] else s.slice i.toNat (i.toNat + 1))
  | "at" =>
    let i ← toPosition call (arg 0) 0
    let i := if i < 0 then i + n else i
    if i < 0 then return .undefined
    match s[i.toNat]? with
    | some u => return .str [u]
    | none => return .undefined
  | "charCodeAt" =>
    let i ← toPosition call (arg 0) 0
    match (if i < 0 then none else s[i.toNat]?) with
    | some u => return .ofNat u.toNat
    | none => return .num Number.nan
  | "codePointAt" =>
    let i ← toPosition call (arg 0) 0
    match (if i < 0 then none else (Units.codes (s.drop i.toNat)).head?) with
    | some c => return .ofNat c
    | none => return .undefined
  | "concat" =>
    let rest ← args.mapM (toUnits call)
    return .str (s ++ rest.flatten)
  | "indexOf" =>
    let needle ← toUnits call (arg 0)
    let start := clamp n (← toPosition call (arg 1) 0)
    return match s.indexOf needle start with
      | some i => .ofNat i
      | none => .num (-1)
  | "lastIndexOf" =>
    let needle ← toUnits call (arg 0)
    let x ← toNumber call (arg 1)
    let start := if x.isNaN then n else clamp n (wholePart x)
    return match s.lastIndexOf needle start with
      | some i => .ofNat i
      | none => .num (-1)
  | "includes" =>
    let needle ← toUnits call (arg 0)
    let start := clamp n (← toPosition call (arg 1) 0)
    return .bool (s.indexOf needle start).isSome
  | "startsWith" =>
    let needle ← toUnits call (arg 0)
    let start := clamp n (← toPosition call (arg 1) 0)
    return .bool (needle.isPrefixOf (s.drop start))
  | "endsWith" =>
    let needle ← toUnits call (arg 0)
    let stop := clamp n (← toPosition call (arg 1) n)
    return .bool (needle.isSuffixOf (s.take stop))
  | "slice" =>
    let start := fromEnd n (← toPosition call (arg 0) 0)
    let stop := fromEnd n (← toPosition call (arg 1) n)
    return .str (s.slice start stop)
  | "substring" =>
    let a := clamp n (← toPosition call (arg 0) 0)
    let b := clamp n (← toPosition call (arg 1) n)
    return .str (s.slice (min a b) (max a b))
  | "substr" =>
    let start := fromEnd n (← toPosition call (arg 0) 0)
    let count := clamp n (← toPosition call (arg 1) n)
    return .str (s.slice start (start + count))
  | "split" =>
    let limit ← toPosition call (arg 1) 4294967295
    let pieces ← do
      if (arg 0).isUndefined then pure [s] else pure (s.split (← toUnits call (arg 0)))
    Run.arrayOf ((pieces.take limit.toNat).map .str)
  | "replace" =>
    let found ← toUnits call (arg 0)
    return .str (← replaceFrom call s found (arg 1) false 1 0)
  | "replaceAll" =>
    let found ← toUnits call (arg 0)
    return .str (← replaceFrom call s found (arg 1) true (n + 2) 0)
  | "repeat" =>
    let k ← toPosition call (arg 0) 0
    if k < 0 || 1073741824 < k * n then Run.raiseError .range "repeat count is out of range"
    return .str (List.replicate k.toNat s).flatten
  | "padStart" =>
    let width ← toPosition call (arg 0) 0
    let filler ← do
      if (arg 1).isUndefined then pure [32] else toUnits call (arg 1)
    return .str (fillTo filler (width.toNat - n) ++ s)
  | "padEnd" =>
    let width ← toPosition call (arg 0) 0
    let filler ← do
      if (arg 1).isUndefined then pure [32] else toUnits call (arg 1)
    return .str (s ++ fillTo filler (width.toNat - n))
  | "localeCompare" =>
    let t ← toUnits call (arg 0)
    return .num (if s.less t then -1 else if t.less s then 1 else 0)
  | _ => Run.typeError "not a callable function"

end WorkflowEngine.Script.Library
