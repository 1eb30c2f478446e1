import WorkflowEngine.Files.Access
import WorkflowEngine.Proofs.FileValues
import WorkflowEngine.Proofs.Paths
import WorkflowEngine.Proofs.Publication

/-!
# Names of files

The names of a file are kept beside its location.

**Splitting.**  The root and the extension of a name are the name; an extension is one dot and more, and
a name of dots has none (`splitBasename_cases`).

**Locations.**  A located file has the names that follow from its location
(`FileValue.namesFollow_locate`), and what else happens to a file leaves them alone
(`FileValue.NamesFollow.update`).

**Values.**  So the files of a value that was read have such names (`Value.named_ofJson`), and they keep
them when each file is changed by work that does (`Value.named_mapFiles`, `Value.named_mapFilesM`).
-/

namespace WorkflowEngine

/-! ## Splitting -/

lemma splitLast?_eq_some {sep : Char} {cs front back : List Char}
    (h : splitLast? sep cs = some (front, back)) :
    front ++ back = cs ∧ ∃ rest, back = sep :: rest ∧ sep ∉ rest := by
  unfold splitLast? at h
  dsimp only at h
  split_ifs at h with hlength
  obtain ⟨rfl, rfl⟩ := Prod.mk.inj (Option.some.inj h)
  refine ⟨List.take_append_drop _ _, ?_⟩
  have hsplit := List.takeWhile_append_dropWhile (p := (· ≠ sep)) (l := cs.reverse)
  set tail := cs.reverse.takeWhile (· ≠ sep) with htail
  cases hrest : cs.reverse.dropWhile (· ≠ sep) with
  | nil =>
      rw [hrest, List.append_nil] at hsplit
      rw [hsplit, List.length_reverse] at hlength
      omega
  | cons c front =>
      obtain rfl : c = sep := by
        have hhead := List.head?_dropWhile_not (· ≠ sep) cs.reverse
        rw [hrest] at hhead
        simpa using hhead
      have hcs : cs = front.reverse ++ c :: tail.reverse := by
        rw [← List.reverse_reverse cs, ← hsplit, hrest]
        simp
      have hcut : cs.length - tail.length - 1 = front.reverse.length := by
        rw [hcs]
        simp
        omega
      refine ⟨tail.reverse, ?_, fun hmem => ?_⟩
      · rw [hcut, hcs, List.drop_left]
      · simpa using List.mem_takeWhile_imp (List.mem_reverse.mp hmem)

/-- What stands in front of the extension of a name, and the extension. -/
lemma splitBasename_cases (name : String) :
    splitBasename name = (name, "") ∨
      ∃ root rest, splitBasename name = (String.ofList root, String.ofList ('.' :: rest)) ∧
        root ++ '.' :: rest = name.toList ∧ '.' ∉ rest ∧ ∃ c ∈ root, c ≠ '.' := by
  unfold splitBasename
  dsimp only
  split
  case h_2 => exact .inl rfl
  case h_1 root back h =>
    obtain ⟨hcs, rest, rfl, hrest⟩ := splitLast?_eq_some h
    refine .inr ⟨_, rest, rfl, ?_, hrest, ?_⟩
    · rw [List.append_assoc, hcs, List.takeWhile_append_dropWhile]
    -- The name goes on after its leading dots with another character, which stands before the last dot.
    · have hhead := List.head?_dropWhile_not (· = '.') name.toList
      rw [← hcs] at hhead
      cases root with
      | nil => simp at hhead
      | cons c root => exact ⟨c, by simp, by simpa using hhead⟩

/-! ## Locations -/

namespace FileValue

/-- The names of a file follow from its location. -/
structure NamesFollow (f : FileValue) : Prop where
  /-- The path is that of the location. -/
  path : f.path = FileUrl.locationPath f.location
  /-- The base name is the file name of the path, empty when there is none. -/
  basename : f.basename = (Path.fileName? f.path).getD ""
  /-- The directory is the parent of the path, empty when there is none. -/
  dirname : f.dirname = (Path.parent? f.path).getD ""
  /-- The directory and the base name are the path, component by component. -/
  joined : f.basename ≠ "" → Path.components (Path.join f.dirname f.basename) = Path.components f.path
  /-- The root and the extension are the base name. -/
  split : f.nameroot ++ f.nameext = f.basename
  /-- An extension is one dot and characters that are no dots. -/
  ext : f.nameext = "" ∨ ∃ rest, f.nameext.toList = '.' :: rest ∧ '.' ∉ rest
  /-- The root of a name with an extension does not consist of dots. -/
  root : f.nameext ≠ "" → ∃ c ∈ f.nameroot.toList, c ≠ '.'

/-- **A located file has the names of its location.** -/
theorem namesFollow_locate (f : FileValue) (location : String) : (f.locate location).NamesFollow := by
  rw [locate_eq]
  set path := FileUrl.locationPath location
  have hjoined : (Path.fileName? path).getD "" ≠ "" →
      Path.components (Path.join ((Path.parent? path).getD "") ((Path.fileName? path).getD ""))
        = Path.components path := by
    cases hname : Path.fileName? path with
    | none => exact fun h => absurd rfl h
    | some name => exact fun _ => Path.components_join_parent hname
  rcases splitBasename_cases ((Path.fileName? path).getD "") with
    hsplit | ⟨root, rest, hsplit, happend, hrest, hroot⟩
  · refine ⟨rfl, rfl, rfl, hjoined, ?_, .inl ?_, fun h => absurd ?_ h⟩
    · simp [hsplit]
    · simp [hsplit]
    · simp [hsplit]
  · refine ⟨rfl, rfl, rfl, hjoined, ?_, .inr ⟨rest, ?_, hrest⟩, fun _ => ?_⟩
    · simp only [hsplit]
      rw [← String.ofList_append, happend, String.ofList_toList]
    · simp [hsplit]
    · simpa [hsplit] using hroot

/-- The names of a file do not depend on what it holds. -/
lemma NamesFollow.update {f : FileValue} (h : f.NamesFollow) (contents : Option String)
    (size : Option Nat) (secondaryFiles : List Json) :
    NamesFollow { f with contents, size, secondaryFiles } :=
  ⟨h.path, h.basename, h.dirname, h.joined, h.split, h.ext, h.root⟩

/-- A file has the names that follow from its location, if it has one. -/
def Named (f : FileValue) : Prop := f.location ≠ "" → f.NamesFollow

lemma named_locate (f : FileValue) (location : String) : (f.locate location).Named :=
  fun _ => namesFollow_locate f location

lemma Named.update {f : FileValue} (h : f.Named) (contents : Option String) (size : Option Nat)
    (secondaryFiles : List Json) : Named { f with contents, size, secondaryFiles } :=
  fun hlocation => (h hlocation).update contents size secondaryFiles

lemma named_ofJson? {json : Json} {f : FileValue} (h : ofJson? json = some f) : f.Named := by
  obtain ⟨raw, -, rfl⟩ := exists_reads_of_ofJson? h
  rcases complete_cases raw with ⟨hlocation, -, hraw⟩ | ⟨location, -, hraw⟩
  · rw [hraw]
    exact fun h => absurd hlocation h
  · rw [hraw]
    exact named_locate raw location

lemma named_ofPath (tree : FileTree) (path : String) : (ofPath tree path).Named :=
  (named_locate blank path).update _ _ _

end FileValue

/-! ## Values -/

namespace Value

/-- Every file reachable through arrays and records has the names that follow from its location. -/
def Named (v : Value) : Prop := ∀ f ∈ v.files, f.Named

lemma named_of_files {v : Value} (h : v.files = []) : v.Named := by
  rw [Named, h]
  exact fun f hf => absurd hf List.not_mem_nil

lemma named_file {f : FileValue} (h : f.Named) : (file f).Named :=
  fun _ hg => List.mem_singleton.mp hg ▸ h

lemma filesItems_eq (items : List Value) : filesItems items = items.flatMap files := by
  induction items with
  | nil => rfl
  | cons item rest ih => rw [filesItems, ih, List.flatMap_cons]

lemma named_array {items : List Value} (h : ∀ item ∈ items, item.Named) : (array items).Named := by
  intro f hf
  rw [files, filesItems_eq] at hf
  obtain ⟨item, hi, hf⟩ := List.mem_flatMap.mp hf
  exact h item hi f hf

lemma named_item {items : List Value} (h : (array items).Named) {item : Value} (hi : item ∈ items) :
    item.Named := by
  intro f hf
  refine h f ?_
  rw [files, filesItems_eq]
  exact List.mem_flatMap.mpr ⟨item, hi, hf⟩

mutual

/-- Every file of a value that was read was itself read as a file. -/
lemma exists_ofJson?_of_mem_files : ∀ j : Json, ∀ f ∈ (ofJson j).files,
    ∃ json, FileValue.ofJson? json = some f
  | .null, _, hf | .bool _, _, hf | .float _, _, hf | .str _, _, hf => absurd hf List.not_mem_nil
  | .int n, f, hf => by
      rw [ofJson, ofInt] at hf
      split_ifs at hf <;> exact absurd hf List.not_mem_nil
  | .arr items, f, hf => exists_ofJson?_of_mem_filesItems items f hf
  | .obj ms, f, hf => by
      rw [ofJson, ofObject] at hf
      split at hf
      · cases hread : FileValue.ofJson? (.obj ms) with
        | none =>
            rw [hread] at hf
            exact exists_ofJson?_of_mem_filesFields ms f hf
        | some g =>
            rw [hread] at hf
            obtain rfl : f = g := List.mem_singleton.mp hf
            exact ⟨_, hread⟩
      · cases hread : DirectoryValue.ofJson? (.obj ms) with
        | none =>
            rw [hread] at hf
            exact exists_ofJson?_of_mem_filesFields ms f hf
        | some d =>
            rw [hread] at hf
            exact absurd hf List.not_mem_nil
      · exact exists_ofJson?_of_mem_filesFields ms f hf

lemma exists_ofJson?_of_mem_filesItems : ∀ (items : List Json), ∀ f ∈ filesItems (ofItems items),
    ∃ json, FileValue.ofJson? json = some f
  | [], _, hf => absurd hf List.not_mem_nil
  | item :: rest, f, hf => by
      rw [ofItems, filesItems] at hf
      rcases List.mem_append.mp hf with hf | hf
      · exact exists_ofJson?_of_mem_files item f hf
      · exact exists_ofJson?_of_mem_filesItems rest f hf

lemma exists_ofJson?_of_mem_filesFields : ∀ (ms : List (String × Json)), ∀ f ∈ filesFields (ofMembers ms),
    ∃ json, FileValue.ofJson? json = some f
  | [], _, hf => absurd hf List.not_mem_nil
  | (_, j) :: rest, f, hf => by
      rw [ofMembers, filesFields] at hf
      rcases List.mem_append.mp hf with hf | hf
      · exact exists_ofJson?_of_mem_files j f hf
      · exact exists_ofJson?_of_mem_filesFields rest f hf

end

/-- Every file of a value that was read has the names that follow from its location. -/
lemma named_ofJson (j : Json) : (ofJson j).Named := by
  intro f hf
  obtain ⟨json, hread⟩ := exists_ofJson?_of_mem_files j f hf
  exact FileValue.named_ofJson? hread

section MapFiles

variable (g : FileValue → FileValue)

mutual

lemma files_mapFiles : ∀ v : Value, (v.mapFiles g).files = v.files.map g
  | .file _ => rfl
  | .array items => files_mapFilesItems items
  | .record fields => files_mapFilesFields fields
  | .null | .bool _ | .int _ | .float _ | .str _ | .directory _ => rfl

lemma files_mapFilesItems : ∀ items : List Value,
    filesItems (mapFilesItems g items) = (filesItems items).map g
  | [] => rfl
  | item :: rest => by
      rw [mapFilesItems, filesItems, filesItems, files_mapFiles item, files_mapFilesItems rest,
        List.map_append]

lemma files_mapFilesFields : ∀ fields : List (String × Value),
    filesFields (mapFilesFields g fields) = (filesFields fields).map g
  | [] => rfl
  | (_, v) :: rest => by
      rw [mapFilesFields, filesFields, filesFields, files_mapFiles v, files_mapFilesFields rest,
        List.map_append]

end

end MapFiles

lemma named_mapFiles {g : FileValue → FileValue} (hg : ∀ f, f.Named → (g f).Named) {v : Value}
    (h : v.Named) : (v.mapFiles g).Named := by
  intro f hf
  rw [files_mapFiles] at hf
  obtain ⟨own, hown, rfl⟩ := List.mem_map.mp hf
  exact hg own (h own hown)

section MapFilesM

variable {g : FileValue → Logged FileValue}

/-- What becomes of the files of a value, one by one. -/
def Mapped (g : FileValue → Logged FileValue) : List FileValue → List FileValue → Prop :=
  List.Forall₂ fun f f' => ∃ own rest, (g f).run own = (.ok f', rest)

mutual

lemma mapped_mapFilesM : ∀ {v w : Value} {before after : List Event},
    (v.mapFilesM g).run before = (.ok w, after) → Mapped g v.files w.files
  | .file f, w, before, after, h => by
      rw [mapFilesM] at h
      obtain ⟨f', _, hf, h⟩ := Logged.bind_eq_ok.mp h
      obtain rfl : .file f' = w := Except.ok.inj (Prod.mk.inj h).1
      exact .cons ⟨_, _, hf⟩ .nil
  | .array items, w, before, after, h => by
      rw [mapFilesM] at h
      obtain ⟨items', _, hitems, h⟩ := Logged.bind_eq_ok.mp h
      obtain rfl : .array items' = w := Except.ok.inj (Prod.mk.inj h).1
      exact mapped_mapFilesItemsM hitems
  | .record fields, w, before, after, h => by
      rw [mapFilesM] at h
      obtain ⟨fields', _, hfields, h⟩ := Logged.bind_eq_ok.mp h
      obtain rfl : .record fields' = w := Except.ok.inj (Prod.mk.inj h).1
      exact mapped_mapFilesFieldsM hfields
  | .null, w, _, _, h | .bool _, w, _, _, h | .int _, w, _, _, h | .float _, w, _, _, h
  | .str _, w, _, _, h | .directory _, w, _, _, h => by
      obtain rfl := Except.ok.inj (Prod.mk.inj h).1
      exact .nil

lemma mapped_mapFilesItemsM : ∀ {items items' : List Value} {before after : List Event},
    (mapFilesItemsM g items).run before = (.ok items', after) →
      Mapped g (filesItems items) (filesItems items')
  | [], items', before, after, h => by
      obtain rfl : [] = items' := Except.ok.inj (Prod.mk.inj h).1
      exact .nil
  | item :: rest, items', before, after, h => by
      rw [mapFilesItemsM] at h
      obtain ⟨first, _, hfirst, h⟩ := Logged.bind_eq_ok.mp h
      obtain ⟨others, _, hothers, h⟩ := Logged.bind_eq_ok.mp h
      obtain rfl : first :: others = items' := Except.ok.inj (Prod.mk.inj h).1
      exact List.rel_append (mapped_mapFilesM hfirst) (mapped_mapFilesItemsM hothers)

lemma mapped_mapFilesFieldsM : ∀ {fields fields' : List (String × Value)} {before after : List Event},
    (mapFilesFieldsM g fields).run before = (.ok fields', after) →
      Mapped g (filesFields fields) (filesFields fields')
  | [], fields', before, after, h => by
      obtain rfl : [] = fields' := Except.ok.inj (Prod.mk.inj h).1
      exact .nil
  | (key, v) :: rest, fields', before, after, h => by
      rw [mapFilesFieldsM] at h
      obtain ⟨first, _, hfirst, h⟩ := Logged.bind_eq_ok.mp h
      obtain ⟨others, _, hothers, h⟩ := Logged.bind_eq_ok.mp h
      obtain rfl : (key, first) :: others = fields' := Except.ok.inj (Prod.mk.inj h).1
      exact List.rel_append (mapped_mapFilesM hfirst) (mapped_mapFilesFieldsM hothers)

end

end MapFilesM

lemma named_mapFilesM {g : FileValue → Logged FileValue}
    (hg : ∀ f f' own rest, f.Named → (g f).run own = (.ok f', rest) → f'.Named)
    {v w : Value} {before after : List Event} (h : v.Named)
    (hrun : (v.mapFilesM g).run before = (.ok w, after)) : w.Named := by
  intro f' hf'
  obtain ⟨f, hf, own, rest, hff'⟩ := forall₂_mem_right (mapped_mapFilesM hrun) hf'
  exact hg f f' own rest (h f hf) hff'

end Value

end WorkflowEngine
