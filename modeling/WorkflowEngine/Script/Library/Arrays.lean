import WorkflowEngine.Script.Convert

/-!
# Methods of arrays

A method of arrays works on any value with a length: its items are read once, and the methods that
change an array write the new items back.

* **`arrayMethod`** — a method of an array, by its name.
-/

namespace WorkflowEngine.Script.Library

/-- The items of an array or of a value with a length. -/
def itemsOf (call : Caller) (v : Val) : Run (List (Option Val)) := do
  match v with
  | .str u => return u.map fun unit => some (.str [unit])
  | .obj r =>
    let o ← Run.object r
    if o.cls == .array then return o.items.toList
    let n := wholePart (← toNumber call (← readMember v (Units.ofString "length")))
    return (List.range (min n.toNat widestArray)).map fun i => o.own? (keyOfNat i)
  | .undefined => Run.typeError "cannot convert 'null' or 'undefined' to object"
  | .null => Run.typeError "cannot convert 'null' or 'undefined' to object"
  | _ => return []

/-- Writes the items of an array, or of a value with a length, back. -/
def setItems (v : Val) (items : List (Option Val)) : Run Unit := do
  match v with
  | .obj r =>
    let o ← Run.object r
    if o.cls == .array then Run.update r fun o => { o with items := items.toArray }
    else
      for (item, i) in items.zipIdx do
        match item with
        | some x => writeMember v (keyOfNat i) x
        | none => eraseMember v (keyOfNat i)
      writeMember v (Units.ofString "length") (.ofNat items.length)
  | _ => return ()

/-- The value of an item; a gap counts as undefined. -/
def filled (item : Option Val) : Val := item.getD .undefined

/-- Stops unless a value can be called. -/
def requireFunction (v : Val) : Run Unit := do
  if ← isCallable v then return ()
  Run.typeError "not a callable function"

/-- The items with their positions, without the gaps. -/
def present (items : List (Option Val)) : List (Val × Nat) :=
  items.zipIdx.filterMap fun (item, i) => item.map fun v => (v, i)

/-- Merges two sorted lists; `before` tells whether its first value goes before its second. -/
def merge (before : Val → Val → Run Bool) : Nat → List Val → List Val → Run (List Val)
  | 0, as, bs => return as ++ bs
  | _ + 1, [], bs => return bs
  | _ + 1, as, [] => return as
  | fuel + 1, a :: as, b :: bs => do
    if ← before b a then return b :: (← merge before fuel (a :: as) bs)
    return a :: (← merge before fuel as (b :: bs))

/-- Sorts values by merging; those that compare equal keep their order. -/
def sortByMerging (before : Val → Val → Run Bool) : Nat → List Val → Run (List Val)
  | 0, vs => return vs
  | fuel + 1, vs => do
    if vs.length ≤ 1 then return vs
    let half := vs.length / 2
    let as ← sortByMerging before fuel (vs.take half)
    let bs ← sortByMerging before fuel (vs.drop half)
    merge before (vs.length + 1) as bs

/-- Inserts a value into a list that is sorted backwards: behind all that it goes before. -/
def insertBackwards (before : Val → Val → Run Bool) (v : Val) : List Val → Run (List Val)
  | [] => return [v]
  | last :: rest => do
    if ← before v last then return last :: (← insertBackwards before v rest)
    return v :: last :: rest

/-- Sorts values by inserting them one after the other; those that compare equal keep their order. -/
def sortByInserting (before : Val → Val → Run Bool) (vs : List Val) : Run (List Val) := do
  let backwards ← vs.foldlM (fun sorted v => insertBackwards before v sorted) []
  return backwards.reverse

/-- The longest list that is sorted by inserting.  The two ways differ only when the values have no
order, as numbers and texts that are subtracted from each other. -/
def insertionLimit : Nat := 20

/-- Sorts values. -/
def sortValues (before : Val → Val → Run Bool) (vs : List Val) : Run (List Val) :=
  if vs.length ≤ insertionLimit then sortByInserting before vs
  else sortByMerging before (vs.length + 1) vs

/-- Whether the first value goes before the second in the order of a comparison function, or in the
order of their texts. -/
def comesBefore (call : Caller) (compare : Val) (a b : Val) : Run Bool := do
  if compare.isUndefined then return Units.less (← toUnits call a) (← toUnits call b)
  let x ← toNumber call (← call compare .undefined [a, b])
  return x < 0

/-- The texts of the items, joined; null, undefined and gaps are empty. -/
def joinItems (call : Caller) (sep : Units) (items : List (Option Val)) : Run Units := do
  let texts ← items.mapM fun item =>
    match filled item with
    | .undefined => pure []
    | .null => pure []
    | v => toUnits call v
  return sep.intercalate texts

/-- The items of a nested array up to a depth. -/
def flatten : Nat → List (Option Val) → Run (List (Option Val))
  | 0, items => return items
  | depth + 1, items => do
    let parts ← items.mapM fun item => do
      match item with
      | some (.obj r) =>
        let o ← Run.object r
        if o.cls == .array then flatten depth o.items.toList else return [item]
      | some v => return [some v]
      | none => return []
    return parts.flatten

/-- The first position at which a test holds. -/
def findPosition (test : Val → Nat → Run Bool) : List (Val × Nat) → Run (Option (Val × Nat))
  | [] => return none
  | (v, i) :: rest => do
    if ← test v i then return some (v, i)
    findPosition test rest

/-- Sameness for `includes`: a value that is not a number is the same as itself. -/
def sameValue (a b : Val) : Bool :=
  match a, b with
  | .num x, .num y => x == y || (x.isNaN && y.isNaN)
  | a, b => strictEqual a b

/-- Folds values with a function of the script. -/
def foldValues (call : Caller) (f whole : Val) : Val → List (Val × Nat) → Run Val
  | acc, [] => return acc
  | acc, (v, i) :: rest => do
    foldValues call f whole (← call f .undefined [acc, v, .ofNat i, whole]) rest

/-- A method of an array. -/
def arrayMethod (call : Caller) (name : String) (this : Val) (args : List Val) : Run Val := do
  let arg := argAt args
  let items ← itemsOf call this
  let n := items.length
  let dense := items.zipIdx.map fun (item, i) => (filled item, i)
  let test (v : Val) (i : Nat) : Run Bool := do
    return truthy (← call (arg 0) (arg 1) [v, .ofNat i, this])
  match name with
  | "push" =>
    setItems this (items ++ args.map some)
    return .ofNat (n + args.length)
  | "pop" =>
    if n == 0 then return .undefined
    setItems this items.dropLast
    return filled (items.getLast?.join)
  | "shift" =>
    match items with
    | [] => return .undefined
    | first :: rest => setItems this rest; return filled first
  | "unshift" =>
    setItems this (args.map some ++ items)
    return .ofNat (n + args.length)
  | "slice" =>
    let start := fromEnd n (← toPosition call (arg 0) 0)
    let stop := fromEnd n (← toPosition call (arg 1) n)
    Run.newArray ((items.take stop).drop start)
  | "splice" =>
    let start := fromEnd n (← toPosition call (arg 0) 0)
    let count ← do
      match args with
      | [] => pure 0
      | [_] => pure (n - start)
      | _ => pure (clamp (n - start) (← toPosition call (arg 1) 0))
    let removed ← Run.newArray ((items.drop start).take count)
    setItems this (items.take start ++ (args.drop 2).map some ++ items.drop (start + count))
    return removed
  | "concat" =>
    let parts ← args.mapM fun v => do
      match v with
      | .obj r =>
        let o ← Run.object r
        return if o.cls == .array then o.items.toList else [some v]
      | v => return [some v]
    Run.newArray (items ++ parts.flatten)
  | "join" =>
    let sep ← do
      if (arg 0).isUndefined then pure (Units.ofString ",") else toUnits call (arg 0)
    return .str (← joinItems call sep items)
  | "toString" => return .str (← joinItems call (Units.ofString ",") items)
  | "reverse" =>
    setItems this items.reverse
    return this
  | "sort" =>
    if !(arg 0).isUndefined then requireFunction (arg 0)
    let values := items.filterMap id
    let defined := values.filter (!·.isUndefined)
    let sorted ← sortValues (comesBefore call (arg 0)) defined
    let undefineds := List.replicate (values.length - defined.length) (some Val.undefined)
    setItems this (sorted.map some ++ undefineds ++ List.replicate (n - values.length) none)
    return this
  | "indexOf" =>
    let start := fromEnd n (← toPosition call (arg 1) 0)
    return match (present items).find? fun (v, i) => start ≤ i && strictEqual v (arg 0) with
      | some (_, i) => .ofNat i
      | none => .num (-1)
  | "lastIndexOf" =>
    return match (present items).reverse.find? fun (v, _) => strictEqual v (arg 0) with
      | some (_, i) => .ofNat i
      | none => .num (-1)
  | "includes" => return .bool (dense.any fun (v, _) => sameValue v (arg 0))
  | "at" =>
    let i ← toPosition call (arg 0) 0
    let i := if i < 0 then i + n else i
    if i < 0 then return .undefined
    return filled (items[i.toNat]?.join)
  | "fill" =>
    let start := fromEnd n (← toPosition call (arg 1) 0)
    let stop := fromEnd n (← toPosition call (arg 2) n)
    setItems this (items.zipIdx.map fun (item, i) =>
      if start ≤ i && i < stop then some (arg 0) else item)
    return this
  | "flat" =>
    let depth ← toPosition call (arg 0) 1
    Run.newArray (← flatten (min depth.toNat 1000) (items.filter (·.isSome)))
  | "forEach" =>
    requireFunction (arg 0)
    for (v, i) in present items do
      let _ ← call (arg 0) (arg 1) [v, .ofNat i, this]
    return .undefined
  | "map" =>
    requireFunction (arg 0)
    let results ← items.zipIdx.mapM fun (item, i) => do
      match item with
      | some v => return some (← call (arg 0) (arg 1) [v, .ofNat i, this])
      | none => return none
    Run.newArray results
  | "flatMap" =>
    requireFunction (arg 0)
    let results ← (present items).mapM fun (v, i) => call (arg 0) (arg 1) [v, .ofNat i, this]
    Run.newArray (← flatten 1 (results.map some))
  | "filter" =>
    requireFunction (arg 0)
    let kept ← (present items).filterM fun (v, i) => test v i
    Run.arrayOf (kept.map Prod.fst)
  | "some" =>
    requireFunction (arg 0)
    return .bool (← findPosition test (present items)).isSome
  | "every" =>
    requireFunction (arg 0)
    let miss ← findPosition (fun v i => do return !(← test v i)) (present items)
    return .bool miss.isNone
  | "find" =>
    requireFunction (arg 0)
    return ((← findPosition test dense).map Prod.fst).getD .undefined
  | "findIndex" =>
    requireFunction (arg 0)
    return match ← findPosition test dense with
      | some (_, i) => .ofNat i
      | none => .num (-1)
  | "reduce" =>
    requireFunction (arg 0)
    match args, present items with
    | _ :: start :: _, vs => foldValues call (arg 0) this start vs
    | _, (v, _) :: vs => foldValues call (arg 0) this v vs
    | _, [] => Run.typeError "Array.prototype.reduce called on an empty array"
  | "reduceRight" =>
    requireFunction (arg 0)
    match args, (present items).reverse with
    | _ :: start :: _, vs => foldValues call (arg 0) this start vs
    | _, (v, _) :: vs => foldValues call (arg 0) this v vs
    | _, [] => Run.typeError "Array.prototype.reduceRight called on an empty array"
  | _ => Run.typeError "not a callable function"

end WorkflowEngine.Script.Library
