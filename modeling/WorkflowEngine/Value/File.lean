import WorkflowEngine.Json.Basic
import WorkflowEngine.Path.FileUrl

/-!
# Files and directories as values

A file value is known by its location; its path and the parts of its name follow from it.  A value
that was read from a document may lack a location: then its names are kept as they were given.

* **`splitBasename`** — the root and the extension of a name.
* **`FileValue`**, **`FileValue.locate`** — a file, and a file moved to another location.
* **`FileValue.ofJson?`**, **`FileValue.toJson`** — reading and writing; the same for
  **`DirectoryValue`**.
-/

namespace WorkflowEngine

/-- A character list up to the last occurrence of a character, and from it on. -/
def splitLast? (sep : Char) (cs : List Char) : Option (List Char × List Char) :=
  let tail := cs.reverse.takeWhile (· ≠ sep)
  if tail.length < cs.length then
    some (cs.take (cs.length - tail.length - 1), cs.drop (cs.length - tail.length - 1))
  else none

/-- The root and the extension of a name.  The extension starts at the last dot; leading dots never
start one. -/
def splitBasename (basename : String) : String × String :=
  let cs := basename.toList
  let leading := cs.takeWhile (· = '.')
  match splitLast? '.' (cs.dropWhile (· = '.')) with
  | some (root, ext) => (String.ofList (leading ++ root), String.ofList ext)
  | none => (basename, "")

/-- A file. -/
structure FileValue where
  location : String
  path : String
  basename : String
  nameroot : String
  nameext : String
  dirname : String
  contents : Option String
  size : Option Nat
  checksum : Option String
  format : Option String
  secondaryFiles : List Json
  deriving Inhabited, BEq

/-- A directory. -/
structure DirectoryValue where
  location : String
  path : String
  basename : String
  listing : List Json
  deriving Inhabited, BEq

/-! ## Reading members -/

/-- The text of an optional member: empty when absent, nothing when it is not a string. -/
def textMember? (json : Json) (key : String) : Option String :=
  match json.field? key with
  | none => some ""
  | some (.str s) => some s
  | some _ => none

/-- The text of a member that may be absent or null. -/
def optionalText? (json : Json) (key : String) : Option (Option String) :=
  match json.field? key with
  | none => some none
  | some .null => some none
  | some (.str s) => some (some s)
  | some _ => none

/-- The natural number of a member that may be absent or null. -/
def optionalNat? (json : Json) (key : String) : Option (Option Nat) :=
  match json.field? key with
  | none => some none
  | some .null => some none
  | some (.int n) => if 0 ≤ n then some (some n.toNat) else none
  | some _ => none

/-- The items of a member that may be absent. -/
def itemsMember? (json : Json) (key : String) : Option (List Json) :=
  match json.field? key with
  | none => some []
  | some (.arr items) => some items
  | some _ => none

/-- A member with a text. -/
def textMember (key value : String) : String × Json := (key, .str value)

/-- A member that is written only when it has a value. -/
def optionalMember (key : String) (value : Option Json) : List (String × Json) :=
  (value.map fun v => (key, v)).toList

/-- A member with items that is written only when there are some. -/
def itemsMember (key : String) (items : List Json) : List (String × Json) :=
  if items.isEmpty then [] else [(key, .arr items)]

/-! ## Files -/

namespace FileValue

/-- A file without any property. -/
def blank : FileValue := ⟨"", "", "", "", "", "", none, none, none, none, []⟩

/-- The file at another location, with the names that follow from it. -/
def locate (file : FileValue) (location : String) : FileValue :=
  let path := FileUrl.locationPath location
  let basename := (Path.fileName? path).getD ""
  let (nameroot, nameext) := splitBasename basename
  { file with
    location, path, basename, nameroot, nameext, dirname := (Path.parent? path).getD "" }

/-- The file at a location. -/
def ofLocation (location : String) : FileValue := blank.locate location

/-- Derives the names from the location, or from the path when there is no location. -/
def complete (file : FileValue) : FileValue :=
  let location := if file.location = "" then file.path else file.location
  if location = "" then file else file.locate location

/-- Reads the members of a file; nothing when one has the wrong type. -/
def ofJson? (json : Json) : Option FileValue := do
  let location ← textMember? json "location"
  let path ← textMember? json "path"
  let basename ← textMember? json "basename"
  let nameroot ← textMember? json "nameroot"
  let nameext ← textMember? json "nameext"
  let dirname ← textMember? json "dirname"
  let contents ← optionalText? json "contents"
  let size ← optionalNat? json "size"
  let checksum ← optionalText? json "checksum"
  let format ← optionalText? json "format"
  let secondaryFiles ← itemsMember? json "secondaryFiles"
  return complete
    ⟨location, path, basename, nameroot, nameext, dirname, contents, size, checksum, format,
      secondaryFiles⟩

/-- The members of a file. -/
def toJson (file : FileValue) : Json :=
  .obj ([textMember "class" "File", textMember "location" file.location,
      textMember "path" file.path, textMember "basename" file.basename,
      textMember "nameroot" file.nameroot, textMember "nameext" file.nameext,
      textMember "dirname" file.dirname]
    ++ optionalMember "contents" (file.contents.map .str)
    ++ optionalMember "size" (file.size.map fun n => .int n)
    ++ optionalMember "checksum" (file.checksum.map .str)
    ++ optionalMember "format" (file.format.map .str)
    ++ itemsMember "secondaryFiles" file.secondaryFiles)

end FileValue

/-! ## Directories -/

namespace DirectoryValue

/-- The directory at a location. -/
def ofLocation (location : String) : DirectoryValue :=
  let path := FileUrl.locationPath location
  ⟨location, path, (Path.fileName? path).getD "", []⟩

/-- Reads the members of a directory; its names follow from the location, or from the path when
there is no location. -/
def ofJson? (json : Json) : Option DirectoryValue := do
  let location ← textMember? json "location"
  let path ← textMember? json "path"
  let _ ← textMember? json "basename"
  let listing ← itemsMember? json "listing"
  return { ofLocation (if location = "" then path else location) with listing }

/-- The members of a directory. -/
def toJson (directory : DirectoryValue) : Json :=
  .obj ([textMember "class" "Directory", textMember "location" directory.location,
      textMember "path" directory.path, textMember "basename" directory.basename]
    ++ itemsMember "listing" directory.listing)

end DirectoryValue

end WorkflowEngine
