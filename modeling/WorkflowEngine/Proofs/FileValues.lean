import Mathlib.Tactic.Common
import WorkflowEngine.Proofs.Maps
import WorkflowEngine.Value.File

/-!
# Laws of files and directories as values

**Names.**  A completed file is a located one unless it has neither a location nor a path
(`FileValue.complete_cases`), and completing it once more makes no difference
(`FileValue.complete_complete`).

**Members.**  The members of a file are read as they were written (`FileValue.reads_toJson`).  So a file
or directory that was read is read again as it is written: `FileValue.ofJson?_toJson`,
`DirectoryValue.ofJson?_toJson`.
-/

namespace WorkflowEngine

/-! ## Members as they are written -/

section Members

variable (key : String)

lemma find?_optionalMember (own : String) (value : Option Json) :
    OrderedMap.find? (optionalMember own value) key = if own = key then value else none := by
  cases value with
  | none => simp [optionalMember]
  | some v => simp [optionalMember, OrderedMap.find?_cons]

lemma find?_itemsMember (own : String) (items : List Json) :
    OrderedMap.find? (itemsMember own items) key
      = if own = key ∧ items ≠ [] then some (.arr items) else none := by
  cases items with
  | nil => simp [itemsMember]
  | cons item rest => simp [itemsMember, OrderedMap.find?_cons]

end Members

/-! ## Files -/

namespace FileValue

lemma locate_eq (f : FileValue) (location : String) :
    f.locate location =
      let path := FileUrl.locationPath location
      let basename := (Path.fileName? path).getD ""
      { f with
        location, path, basename
        nameroot := (splitBasename basename).1
        nameext := (splitBasename basename).2
        dirname := (Path.parent? path).getD "" } := by
  dsimp only [locate]

@[simp] lemma location_locate (f : FileValue) (location : String) :
    (f.locate location).location = location := by
  rw [locate_eq]

lemma locate_locate (f : FileValue) (location location' : String) :
    (f.locate location').locate location = f.locate location := by
  simp only [locate_eq]

/-- A completed file either lacks a location and a path or is a located one. -/
lemma complete_cases (f : FileValue) :
    f.location = "" ∧ f.path = "" ∧ f.complete = f ∨
      ∃ location, location ≠ "" ∧ f.complete = f.locate location := by
  by_cases hlocation : f.location = ""
  · by_cases hpath : f.path = ""
    · exact .inl ⟨hlocation, hpath, by simp [complete, hlocation, hpath]⟩
    · exact .inr ⟨f.path, hpath, by simp [complete, hlocation, hpath]⟩
  · exact .inr ⟨f.location, hlocation, by simp [complete, hlocation]⟩

/-- Completing a file twice is completing it once. -/
lemma complete_complete (f : FileValue) : f.complete.complete = f.complete := by
  rcases complete_cases f with ⟨-, -, hf⟩ | ⟨location, hlocation, hf⟩
  · rw [hf, hf]
  · rw [hf, complete, location_locate, if_neg hlocation, if_neg hlocation, locate_locate]

/-- A file whose fields are the members of an object. -/
structure Reads (json : Json) (f : FileValue) : Prop where
  location : textMember? json "location" = some f.location
  path : textMember? json "path" = some f.path
  basename : textMember? json "basename" = some f.basename
  nameroot : textMember? json "nameroot" = some f.nameroot
  nameext : textMember? json "nameext" = some f.nameext
  dirname : textMember? json "dirname" = some f.dirname
  contents : optionalText? json "contents" = some f.contents
  size : optionalNat? json "size" = some f.size
  checksum : optionalText? json "checksum" = some f.checksum
  format : optionalText? json "format" = some f.format
  secondaryFiles : itemsMember? json "secondaryFiles" = some f.secondaryFiles

lemma Reads.ofJson?_eq {json : Json} {f : FileValue} (h : Reads json f) :
    ofJson? json = some f.complete := by
  rw [ofJson?, h.location, h.path, h.basename, h.nameroot, h.nameext, h.dirname, h.contents, h.size,
    h.checksum, h.format, h.secondaryFiles]
  rfl

lemma exists_reads_of_ofJson? {json : Json} {f : FileValue} (h : ofJson? json = some f) :
    ∃ raw, Reads json raw ∧ f = raw.complete := by
  simp only [ofJson?, Option.bind_eq_bind, Option.bind_eq_some_iff, Option.pure_def,
    Option.some.injEq] at h
  obtain ⟨location, hlocation, path, hpath, basename, hbasename, nameroot, hnameroot, nameext, hnameext,
    dirname, hdirname, contents, hcontents, size, hsize, checksum, hchecksum, format, hformat,
    secondaryFiles, hsecondaryFiles, rfl⟩ := h
  exact ⟨⟨location, path, basename, nameroot, nameext, dirname, contents, size, checksum, format,
    secondaryFiles⟩, ⟨hlocation, hpath, hbasename, hnameroot, hnameext, hdirname, hcontents, hsize,
    hchecksum, hformat, hsecondaryFiles⟩, rfl⟩

/-- The members of a file are read as they were written. -/
lemma reads_toJson (f : FileValue) : Reads f.toJson f := by
  constructor
  case size =>
    cases hsize : f.size <;>
      simp [toJson, optionalNat?, Json.field?, Json.members, OrderedMap.find?_append,
        find?_optionalMember, find?_itemsMember, textMember, OrderedMap.find?_cons, hsize]
  case contents | checksum | format =>
    cases hcontents : f.contents <;> cases hchecksum : f.checksum <;> cases hformat : f.format <;>
      simp [toJson, optionalText?, Json.field?, Json.members, OrderedMap.find?_append,
        find?_optionalMember, find?_itemsMember, textMember, OrderedMap.find?_cons, *]
  case secondaryFiles =>
    cases hsecondary : f.secondaryFiles <;>
      simp [toJson, itemsMember?, Json.field?, Json.members, OrderedMap.find?_append,
        find?_optionalMember, find?_itemsMember, textMember, OrderedMap.find?_cons, hsecondary]
  all_goals simp [toJson, textMember?, Json.field?, Json.members, textMember, OrderedMap.find?_cons]

/-- **A file that was read is read again as it is written.** -/
lemma ofJson?_toJson {json : Json} {f : FileValue} (h : ofJson? json = some f) :
    ofJson? f.toJson = some f := by
  obtain ⟨raw, -, rfl⟩ := exists_reads_of_ofJson? h
  rw [(reads_toJson raw.complete).ofJson?_eq, complete_complete]

lemma field?_class_toJson (f : FileValue) : f.toJson.field? "class" = some (.str "File") := rfl

end FileValue

/-! ## Directories -/

namespace DirectoryValue

lemma ofJson?_eq_some_iff {json : Json} {d : DirectoryValue} :
    ofJson? json = some d ↔
      ∃ location path basename listing, textMember? json "location" = some location ∧
        textMember? json "path" = some path ∧ textMember? json "basename" = some basename ∧
        itemsMember? json "listing" = some listing ∧
        d = { ofLocation (if location = "" then path else location) with listing } := by
  simp only [ofJson?, Option.bind_eq_bind, Option.bind_eq_some_iff, Option.pure_def,
    Option.some.injEq]
  constructor
  · rintro ⟨location, hlocation, path, hpath, basename, hbasename, listing, hlisting, rfl⟩
    exact ⟨location, path, basename, listing, hlocation, hpath, hbasename, hlisting, rfl⟩
  · rintro ⟨location, path, basename, listing, hlocation, hpath, hbasename, hlisting, rfl⟩
    exact ⟨location, hlocation, path, hpath, basename, hbasename, listing, hlisting, rfl⟩

lemma path_ofLocation_empty : (ofLocation "").path = "" := rfl

/-- **A directory that was read is read again as it is written.** -/
lemma ofJson?_toJson {json : Json} {d : DirectoryValue} (h : ofJson? json = some d) :
    ofJson? d.toJson = some d := by
  obtain ⟨location, path, basename, listing, -, -, -, -, rfl⟩ := ofJson?_eq_some_iff.mp h
  generalize (if location = "" then path else location) = place
  have hplace : (if place = "" then (ofLocation place).path else place) = place := by
    split_ifs with hempty
    · rw [hempty, path_ofLocation_empty]
    · rfl
  refine ofJson?_eq_some_iff.mpr ⟨place, (ofLocation place).path, (ofLocation place).basename, listing,
    rfl, rfl, rfl, ?_, by rw [hplace]⟩
  cases listing <;> rfl

lemma field?_class_toJson (d : DirectoryValue) :
    d.toJson.field? "class" = some (.str "Directory") := rfl

end DirectoryValue

end WorkflowEngine
