import WorkflowEngine.Decimal.Shortest

/-!
# How a floating point number is laid out

The digits of a number come from `shortest`; where they are written positionally, how an exponent
looks and what stands for the numbers without digits is a matter of each format.  Three formats are
in use: the one of documents and results, the one of scripts, and the one of messages.

* **`Layout`** — the decisions of a format.
* **`Layout.document`** — `100.0`, `1e-6`, `1.5e+16`.
* **`Layout.script`** — `100`, `0.000001`, `1e-7`, `1e+21`.
* **`Layout.plain`** — `100`, `0.0000001`.
* **`Layout.write`** — the text of a number in a format.
-/

namespace WorkflowEngine.Decimal

/-- The decisions of a format for numbers.  The point of a number stands after `k` digits when it is
`0.d₁d₂… · 10 ^ k`. -/
structure Layout where
  /-- The least `k` that is written positionally. -/
  leastPoint : Int
  /-- The greatest `k` that is written positionally. -/
  greatestPoint : Int
  /-- Whether an integral number ends in `.0`. -/
  pointZero : Bool
  /-- Whether a zero with a minus sign shows it. -/
  signedZero : Bool
  /-- The text of what is not a number. -/
  nan : String
  /-- The text of infinity. -/
  infinity : String

/-- Documents and results: positional from `0.00001` below `1e16`, always with a digit after the
point; there are no infinities. -/
def Layout.document : Layout :=
  ⟨-4, 16, true, true, "null", "null"⟩

/-- Scripts: positional from `0.000001` below `1e21`, integers without a point. -/
def Layout.script : Layout :=
  ⟨-5, 21, false, false, "NaN", "Infinity"⟩

/-- Messages: never an exponent, integers without a point. -/
def Layout.plain : Layout :=
  ⟨-400, 400, false, true, "NaN", "inf"⟩

/-- The exponent mark with its sign. -/
def exponentText (e : Int) : List Char :=
  'e' :: (if 0 ≤ e then '+' else '-') :: Nat.toDigits 10 e.natAbs

/-- The text of a positive number with the given digits and point. -/
def Layout.positive (layout : Layout) (ds : List Char) (point : Int) : List Char :=
  let n : Int := ds.length
  if layout.leastPoint ≤ point ∧ point ≤ layout.greatestPoint then
    if point ≤ 0 then '0' :: '.' :: (List.replicate (-point).toNat '0' ++ ds)
    else if point < n then ds.take point.toNat ++ '.' :: ds.drop point.toNat
    else
      ds ++ List.replicate (point - n).toNat '0' ++ (if layout.pointZero then ['.', '0'] else [])
  else
    match ds with
    | [] => []
    | [d] => d :: exponentText (point - 1)
    | d :: rest => d :: '.' :: (rest ++ exponentText (point - 1))

/-- The text of a number. -/
def Layout.write (layout : Layout) (x : Float) : String :=
  let bits := x.toBits
  let negative := bits >>> 63 == 1
  let magnitude := bits &&& 0x7FFFFFFFFFFFFFFF
  let sign := if negative then ['-'] else []
  if magnitude > 0x7FF0000000000000 then layout.nan
  else if magnitude == 0x7FF0000000000000 then String.ofList (sign ++ layout.infinity.toList)
  else if magnitude == 0 then
    let zero := if layout.pointZero then "0.0" else "0"
    if layout.signedZero && negative then "-" ++ zero else zero
  else
    let d := shortest (.ofBits magnitude)
    let ds := d.text
    String.ofList (sign ++ layout.positive ds (d.exponent + ds.length))

end WorkflowEngine.Decimal
