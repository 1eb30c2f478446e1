import WorkflowEngine.Binding.Locations
import WorkflowEngine.Proofs.AbsolutePaths
import WorkflowEngine.Proofs.FileNames

/-!
# Normalization of files

Before a tool sees its inputs, the locations that stand for shared data or a user's data are expanded,
and the names of all files are derived again.

**Locations.**  An address is its opening and a path, which is seen from the directory that the opening
stands for (`expandLocation_of_standsFor`); only an address is expanded (`expandLocation_of_not_isAddress`).

**Files that were read.**  A file with a location was located there when it was read, so that locating it
again changes nothing; one without a location has no path either, and keeps the names it was given
(`FileValue.asRead_of_ofJson?`).

**Values that were read.**  So normalization leaves a value alone when nothing in it has an address, but
for the files that come without a location: they lose the names that they were given
(`unaddressed_files_left_intact`).  A file that consists of a name and contents is one
(`literal_file_loses_name`).

**Any values.**  What an address stands for below an absolute directory is no address, so that a value
that was normalized is normal (`normalizing_settles`).  All that changes is where its files are and what they
are called (`Value.FileByFile`).
-/

namespace WorkflowEngine

/-! ## Files -/

namespace FileValue

/-- A file as it is read: without a location it has no path either, and with one it is where the location
says. -/
structure AsRead (f : FileValue) : Prop where
  /-- Without a location there is no path. -/
  path : f.location = "" → f.path = ""
  /-- The names are those of the location. -/
  located : f.location ≠ "" → f.locate f.location = f

lemma asRead_of_ofJson? {json : Json} {f : FileValue} (h : ofJson? json = some f) : f.AsRead := by
  obtain ⟨raw, -, rfl⟩ := exists_reads_of_ofJson? h
  rcases complete_cases raw with ⟨hlocation, hpath, hraw⟩ | ⟨location, hlocation, hraw⟩
  · rw [hraw]
    exact ⟨fun _ => hpath, fun hne => absurd hlocation hne⟩
  · rw [hraw]
    refine ⟨fun hempty => absurd hempty ?_, fun _ => ?_⟩
    · rwa [location_locate]
    · rw [location_locate, locate_locate]

/-- Two files with the same data, wherever they are and whatever they are called. -/
structure SameData (f g : FileValue) : Prop where
  contents : g.contents = f.contents
  size : g.size = f.size
  checksum : g.checksum = f.checksum
  format : g.format = f.format
  secondaryFiles : g.secondaryFiles = f.secondaryFiles

lemma sameData_locate (f : FileValue) (location : String) : f.SameData (f.locate location) := by
  rw [locate_eq]
  exact ⟨rfl, rfl, rfl, rfl, rfl⟩

/-- The file without its names. -/
def forgetNames (f : FileValue) : FileValue :=
  { f with basename := "", nameroot := "", nameext := "", dirname := "" }

/-- Whether a file has no names. -/
def Nameless (f : FileValue) : Prop :=
  f.basename = "" ∧ f.nameroot = "" ∧ f.nameext = "" ∧ f.dirname = ""

instance : DecidablePred Nameless := fun _ => inferInstanceAs (Decidable (_ ∧ _))

lemma forgetNames_eq_self_iff {f : FileValue} : f.forgetNames = f ↔ f.Nameless := by
  constructor
  · intro h
    exact ⟨(congrArg basename h).symm, (congrArg nameroot h).symm, (congrArg nameext h).symm,
      (congrArg dirname h).symm⟩
  · intro h
    cases f
    simp only [Nameless] at h
    simp [forgetNames, h]

/-- Locating a file nowhere takes its names away. -/
lemma locate_empty {f : FileValue} (hlocation : f.location = "") (hpath : f.path = "") :
    f.locate "" = f.forgetNames := by
  have hempty : f.locate "" = { f.forgetNames with location := "", path := "" } := rfl
  have hplace : { f.forgetNames with location := f.location, path := f.path } = f.forgetNames := rfl
  rwa [hlocation, hpath, ← hempty] at hplace

/-- The file without its names when it has no location. -/
def forgetUnlocated (f : FileValue) : FileValue := if f.location = "" then f.forgetNames else f

lemma AsRead.locate_location {f : FileValue} (h : f.AsRead) : f.locate f.location = f.forgetUnlocated := by
  rw [forgetUnlocated]
  split_ifs with hlocation
  · rw [hlocation, locate_empty hlocation (h.path hlocation)]
  · exact h.located hlocation

end FileValue

/-! ## Files inside values -/

namespace Value

/-- Two values that differ at most in their files, each of which is related to the one in its place. -/
inductive FileByFile (R : FileValue → FileValue → Prop) : Value → Value → Prop
  | file {f g : FileValue} (h : R f g) : FileByFile R (.file f) (.file g)
  | array {items items' : List Value} (h : List.Forall₂ (FileByFile R) items items') :
      FileByFile R (.array items) (.array items')
  | record {fields fields' : List (String × Value)} (hkeys : fields.map Prod.fst = fields'.map Prod.fst)
      (h : List.Forall₂ (FileByFile R) (fields.map Prod.snd) (fields'.map Prod.snd)) :
      FileByFile R (.record fields) (.record fields')
  | null : FileByFile R .null .null
  | bool (b : Bool) : FileByFile R (.bool b) (.bool b)
  | int (n : Int) : FileByFile R (.int n) (.int n)
  | float (x : Float) : FileByFile R (.float x) (.float x)
  | str (s : String) : FileByFile R (.str s) (.str s)
  | directory (d : DirectoryValue) : FileByFile R (.directory d) (.directory d)

section MapFiles

variable {g h : FileValue → FileValue}

mutual

/-- Only the files of a value are changed. -/
lemma mapFiles_congr : ∀ {v : Value}, (∀ f ∈ v.files, g f = h f) → v.mapFiles g = v.mapFiles h
  | .file f, hgh => congrArg file (hgh f (List.mem_singleton_self f))
  | .array _, hgh => congrArg array (mapFilesItems_congr hgh)
  | .record _, hgh => congrArg record (mapFilesFields_congr hgh)
  | .null, _ | .bool _, _ | .int _, _ | .float _, _ | .str _, _ | .directory _, _ => rfl

lemma mapFilesItems_congr : ∀ {items : List Value}, (∀ f ∈ filesItems items, g f = h f) →
    mapFilesItems g items = mapFilesItems h items
  | [], _ => rfl
  | item :: rest, hgh => by
      rw [filesItems, List.forall_mem_append] at hgh
      rw [mapFilesItems, mapFilesItems, mapFiles_congr hgh.1, mapFilesItems_congr hgh.2]

lemma mapFilesFields_congr : ∀ {fields : List (String × Value)}, (∀ f ∈ filesFields fields, g f = h f) →
    mapFilesFields g fields = mapFilesFields h fields
  | [], _ => rfl
  | (_, v) :: rest, hgh => by
      rw [filesFields, List.forall_mem_append] at hgh
      rw [mapFilesFields, mapFilesFields, mapFiles_congr hgh.1, mapFilesFields_congr hgh.2]

end

mutual

@[simp] lemma mapFiles_id : ∀ v : Value, v.mapFiles id = v
  | .array items => congrArg array (mapFilesItems_id items)
  | .record fields => congrArg record (mapFilesFields_id fields)
  | .null | .bool _ | .int _ | .float _ | .str _ | .file _ | .directory _ => rfl

lemma mapFilesItems_id : ∀ items : List Value, mapFilesItems id items = items
  | [] => rfl
  | item :: rest => by rw [mapFilesItems, mapFiles_id item, mapFilesItems_id rest]

lemma mapFilesFields_id : ∀ fields : List (String × Value), mapFilesFields id fields = fields
  | [] => rfl
  | (_, v) :: rest => by rw [mapFilesFields, mapFiles_id v, mapFilesFields_id rest]

end

/-- A value stays what it is when each of its files does. -/
lemma mapFiles_eq_self_iff {v : Value} : v.mapFiles g = v ↔ ∀ f ∈ v.files, g f = f := by
  constructor
  · intro hv
    have hfiles : v.files.map g = v.files.map id := by
      rw [← files_mapFiles, hv, List.map_id]
    exact List.map_inj_left.mp hfiles
  · intro hg
    rw [mapFiles_congr (h := id) hg, mapFiles_id]

section FileByFile

variable {R : FileValue → FileValue → Prop}

lemma map_fst_mapFilesFields : ∀ fields : List (String × Value),
    fields.map Prod.fst = (mapFilesFields g fields).map Prod.fst
  | [] => rfl
  | (key, _) :: rest => congrArg (key :: ·) (map_fst_mapFilesFields rest)

mutual

/-- A change of its files changes nothing else about a value. -/
lemma fileByFile_mapFiles (hg : ∀ f, R f (g f)) : ∀ v : Value, FileByFile R v (v.mapFiles g)
  | .file f => .file (hg f)
  | .array items => .array (fileByFile_mapFilesItems hg items)
  | .record fields => .record (map_fst_mapFilesFields fields) (fileByFile_mapFilesFields hg fields)
  | .null => .null
  | .bool b => .bool b
  | .int n => .int n
  | .float x => .float x
  | .str s => .str s
  | .directory d => .directory d

lemma fileByFile_mapFilesItems (hg : ∀ f, R f (g f)) :
    ∀ items : List Value, List.Forall₂ (FileByFile R) items (mapFilesItems g items)
  | [] => .nil
  | item :: rest => .cons (fileByFile_mapFiles hg item) (fileByFile_mapFilesItems hg rest)

lemma fileByFile_mapFilesFields (hg : ∀ f, R f (g f)) : ∀ fields : List (String × Value),
    List.Forall₂ (FileByFile R) (fields.map Prod.snd) ((mapFilesFields g fields).map Prod.snd)
  | [] => .nil
  | (_, v) :: rest => .cons (fileByFile_mapFiles hg v) (fileByFile_mapFilesFields hg rest)

end

end FileByFile

end MapFiles

end Value

/-! ## Normalization -/

namespace Binding

/-- Whether a location stands for shared data or a user's data. -/
def IsAddress (location : String) : Prop :=
  "COMMONS/".toList <+: location.toList ∨ "USER/".toList <+: location.toList

instance : DecidablePred IsAddress := fun _ => inferInstanceAs (Decidable (_ ∨ _))

lemma afterOpening?_eq_none {opening s : String} (h : ¬ opening.toList <+: s.toList) :
    afterOpening? opening s = none := by
  rw [afterOpening?, if_neg]
  rwa [List.isPrefixOf_iff_prefix]

lemma expandLocation_of_not_isAddress (config : Configuration) {location : String}
    (h : ¬ IsAddress location) : expandLocation config location = location := by
  rw [IsAddress, not_or] at h
  rw [expandLocation, afterOpening?_eq_none h.1, afterOpening?_eq_none h.2]

/-- The openings of addresses, and the directories that they stand for. -/
inductive StandsFor (config : Configuration) : String → String → Prop
  | commons : StandsFor config "COMMONS/" config.commonsRoot
  | user : StandsFor config "USER/" config.userRoot

lemma exists_append_of_prefix {opening s : String} (h : opening.toList <+: s.toList) :
    ∃ rest, s = opening ++ rest := by
  obtain ⟨rest, h⟩ := h
  refine ⟨String.ofList rest, ?_⟩
  rw [← String.ofList_toList (s := s), ← h, String.ofList_append, String.ofList_toList]

lemma isAddress_iff (config : Configuration) {location : String} :
    IsAddress location ↔ ∃ opening root rest, StandsFor config opening root ∧ location = opening ++ rest := by
  constructor
  · rintro (h | h)
    · obtain ⟨rest, rfl⟩ := exists_append_of_prefix h
      exact ⟨_, _, rest, .commons, rfl⟩
    · obtain ⟨rest, rfl⟩ := exists_append_of_prefix h
      exact ⟨_, _, rest, .user, rfl⟩
  · rintro ⟨_, _, rest, h, rfl⟩
    rw [IsAddress, String.toList_append]
    cases h with
    | commons => exact .inl (List.prefix_append _ _)
    | user => exact .inr (List.prefix_append _ _)

lemma afterOpening?_append (opening rest : String) : afterOpening? opening (opening ++ rest) = some rest := by
  rw [afterOpening?, if_pos, String.toList_append, List.drop_left, String.ofList_toList]
  rw [List.isPrefixOf_iff_prefix, String.toList_append]
  exact List.prefix_append _ _

/-- The path of an address is seen from the directory that its opening stands for. -/
lemma expandLocation_of_standsFor {config : Configuration} {opening root : String}
    (h : StandsFor config opening root) (rest : String) :
    expandLocation config (opening ++ rest) = Path.join root rest := by
  cases h with
  | commons => rw [expandLocation, afterOpening?_append]
  | user =>
      have hcommons : ¬ "COMMONS/".toList <+: ("USER/" ++ rest).toList := by
        rw [String.toList_append]
        exact fun h => absurd (List.cons_prefix_cons.mp h).1 (by decide)
      rw [expandLocation, afterOpening?_eq_none hcommons, afterOpening?_append]

/-- An absolute path is no address. -/
lemma not_isAddress_of_isAbsolute {location : String} (h : Path.isAbsolute location = true) :
    ¬ IsAddress location := by
  obtain ⟨rest, hrest⟩ := List.head?_eq_some_iff.mp (Path.isAbsolute_iff.mp h)
  rw [IsAddress, hrest]
  rintro (hopening | hopening)
  · exact absurd (List.cons_prefix_cons.mp hopening).1 (by decide)
  · exact absurd (List.cons_prefix_cons.mp hopening).1 (by decide)

/-! ## Values without addresses -/

/-- **Values without addresses** lose the names of the files that have no location, and nothing else. -/
theorem unaddressed_files_left_intact (config : Configuration) {j : Json}
    (h : ∀ f ∈ (Value.ofJson j).files, ¬ IsAddress f.location) :
    normalizeFiles config (.ofJson j) = (Value.ofJson j).mapFiles FileValue.forgetUnlocated ∧
      (normalizeFiles config (.ofJson j) = .ofJson j ↔
        ∀ f ∈ (Value.ofJson j).files, f.location = "" → f.Nameless) := by
  have hnormal : normalizeFiles config (.ofJson j) =
      (Value.ofJson j).mapFiles FileValue.forgetUnlocated := by
    refine Value.mapFiles_congr fun f hf => ?_
    obtain ⟨json, hread⟩ := Value.exists_ofJson?_of_mem_files j f hf
    rw [expandLocation_of_not_isAddress config (h f hf), (FileValue.asRead_of_ofJson? hread).locate_location]
  refine ⟨hnormal, ?_⟩
  rw [hnormal, Value.mapFiles_eq_self_iff]
  refine forall₂_congr fun f hf => ?_
  rw [FileValue.forgetUnlocated]
  split_ifs with hlocation
  · rw [FileValue.forgetNames_eq_self_iff]
    exact ⟨fun hf _ => hf, fun hf => hf hlocation⟩
  · exact ⟨fun _ hempty => absurd hempty hlocation, fun _ => rfl⟩

/-- A file with a path, one with a location, and a text without a name. -/
def storedJson : Json :=
  .obj [("reads", .arr [.obj [("class", .str "File"), ("path", .str "/data/x.fq.gz")],
      .obj [("class", .str "File"), ("location", .str "file:///data/y.fq"), ("size", .int 3)]]),
    ("note", .obj [("class", .str "File"), ("contents", .str "hi")])]

/-- Located files and a nameless text stay what they are. -/
theorem stored_files_left_intact :
    (∀ f ∈ (Value.ofJson storedJson).files, ¬ IsAddress f.location) ∧
      normalizeFiles .standard (.ofJson storedJson) = .ofJson storedJson := by
  have unaddressed : ∀ f ∈ (Value.ofJson storedJson).files, ¬ IsAddress f.location := by
    decide +kernel
  refine ⟨unaddressed, (unaddressed_files_left_intact .standard unaddressed).2.mpr ?_⟩
  decide +kernel

/-- A file that consists of a name and contents. -/
def literalJson : Json :=
  .obj [("class", .str "File"), ("basename", .str "a.txt"), ("contents", .str "hi")]

/-- A file that has no location loses the name that it was given. -/
theorem literal_file_loses_name :
    (∀ f ∈ (Value.ofJson literalJson).files, ¬ IsAddress f.location) ∧
      normalizeFiles .standard (.ofJson literalJson) ≠ .ofJson literalJson := by
  refine ⟨by decide +kernel, fun h => ?_⟩
  have hname : ((normalizeFiles .standard (.ofJson literalJson)).file?.map FileValue.basename) =
      (Value.ofJson literalJson).file?.map FileValue.basename := by
    rw [h]
  revert hname
  decide +kernel

/-! ## Any values -/

section Absolute

variable {config : Configuration} (hcommons : Path.isAbsolute config.commonsRoot = true)
  (huser : Path.isAbsolute config.userRoot = true)

include hcommons huser

/-- What an address stands for is an absolute path, and so it is no address. -/
lemma not_isAddress_expandLocation (location : String) : ¬ IsAddress (expandLocation config location) := by
  by_cases haddress : IsAddress location
  · obtain ⟨opening, root, rest, hopening, rfl⟩ := (isAddress_iff config).mp haddress
    rw [expandLocation_of_standsFor hopening]
    refine not_isAddress_of_isAbsolute (Path.isAbsolute_join ?_ rest)
    cases hopening with
    | commons => exact hcommons
    | user => exact huser
  · rwa [expandLocation_of_not_isAddress config haddress]

lemma exists_locate_of_normalizeFiles {v : Value} {f : FileValue} (h : f ∈ (normalizeFiles config v).files) :
    ∃ own location, ¬ IsAddress location ∧ f = FileValue.locate own location := by
  rw [normalizeFiles, Value.files_mapFiles] at h
  obtain ⟨own, -, rfl⟩ := List.mem_map.mp h
  exact ⟨own, _, not_isAddress_expandLocation hcommons huser own.location, rfl⟩

/-- **A value that was normalized** is normal and has no addresses, and nothing but the places and the names
of its files has changed. -/
theorem normalizing_settles (v : Value) :
    normalizeFiles config (normalizeFiles config v) = normalizeFiles config v ∧
      (∀ f ∈ (normalizeFiles config v).files, ¬ IsAddress f.location) ∧
      v.FileByFile FileValue.SameData (normalizeFiles config v) := by
  refine ⟨?_, fun f hf => ?_, Value.fileByFile_mapFiles (fun f => f.sameData_locate _) v⟩
  · rw [normalizeFiles, Value.mapFiles_eq_self_iff]
    intro f hf
    obtain ⟨own, location, hlocation, hlocated⟩ := exists_locate_of_normalizeFiles hcommons huser hf
    rw [hlocated, FileValue.location_locate, expandLocation_of_not_isAddress config hlocation,
      FileValue.locate_locate]
  · obtain ⟨own, location, hlocation, hlocated⟩ := exists_locate_of_normalizeFiles hcommons huser hf
    rwa [hlocated, FileValue.location_locate]

end Absolute

/-- Shared data, a user's data whose path looks like an address, and a text with a name. -/
def addressedReads : Value :=
  .record [("reads", .array [.file (.ofLocation "COMMONS/guid/.hidden.tar.gz"),
      .file { FileValue.ofLocation "USER/COMMONS/x" with size := some 3 }]),
    ("note", .file { FileValue.blank with basename := "a.txt", contents := some "hi" }), ("depth", .int 30)]

/-- Addressed files, in an array beside a text and a number. -/
theorem addressed_reads_settle :
    Path.isAbsolute Configuration.standard.commonsRoot = true ∧
      Path.isAbsolute Configuration.standard.userRoot = true ∧
      (∃ f ∈ addressedReads.files, IsAddress f.location) ∧
      normalizeFiles .standard (normalizeFiles .standard addressedReads) =
        normalizeFiles .standard addressedReads ∧
      (∀ f ∈ (normalizeFiles .standard addressedReads).files, ¬ IsAddress f.location) ∧
      addressedReads.FileByFile FileValue.SameData (normalizeFiles .standard addressedReads) := by
  have hcommons : Path.isAbsolute Configuration.standard.commonsRoot = true := by decide
  have huser : Path.isAbsolute Configuration.standard.userRoot = true := by decide
  exact ⟨hcommons, huser, by decide +kernel, normalizing_settles hcommons huser addressedReads⟩

end Binding

end WorkflowEngine
