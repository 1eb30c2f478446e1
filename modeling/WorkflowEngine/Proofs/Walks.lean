import Mathlib.Data.List.Basic
import Mathlib.Tactic.Common
import WorkflowEngine.Files.Tree
import WorkflowEngine.Proofs.AbsolutePaths
import WorkflowEngine.Proofs.Paths

/-!
# Walks through a tree of files

A path leads to a node by its names, one directory after the other.  Two absolute paths with the same names
lead to the same node, however many slashes stand between them.

**Names.**  The names of a path are its pieces between slashes but for the empty ones; joining a piece adds its
name (`names_join`).  The components of an absolute path follow from its names (`components_of_isAbsolute`).

**Walks.**  A walk along two lists of names is one walk after the other (`walk_append`).

**Paths.**  `Leads`: an absolute path goes to a place.  What is there is found by the path
(`Leads.nodeAt_eq`), and a file is found by such a path only (`leads_of_isFile`).
-/

namespace WorkflowEngine

/-! ## Names -/

namespace Path

/-- The name of a piece between slashes, if it is one. -/
def nameOf (piece : List Char) : List String := if piece = [] then [] else [String.ofList piece]

/-- The names of a path, dots among them. -/
def names (path : String) : List String := (splitChars '/' path.toList).flatMap nameOf

@[simp] lemma nameOf_nil : nameOf [] = [] := rfl

lemma nameOf_of_ne_nil {piece : List Char} (h : piece ≠ []) : nameOf piece = [String.ofList piece] := if_neg h

lemma filter_map_ofList (pieces : List (List Char)) :
    (pieces.map String.ofList).filter (· ≠ "") = pieces.flatMap nameOf := by
  induction pieces with
  | nil => rfl
  | cons piece rest ih =>
      by_cases h : piece = []
      · simpa [h] using ih
      · have hname : String.ofList piece ≠ "" := fun hempty => h (String.ofList_inj.mp hempty)
        rw [List.map_cons, List.filter_cons_of_pos (by simpa using hname), ih, List.flatMap_cons,
          nameOf_of_ne_nil h, List.singleton_append]

/-- The pieces of a path that is joined with a piece. -/
lemma splitChars_append_piece (front : List Char) {piece : List Char} (h : '/' ∉ piece) :
    splitChars '/' (front ++ '/' :: piece) = splitChars '/' front ++ [piece] := by
  rw [splitChars_append, splitChars_of_notMem h]

lemma isAbsolute_of_notMem {piece : List Char} (h : '/' ∉ piece) :
    isAbsolute (String.ofList piece) = false := by
  rw [isAbsolute, beq_eq_false_iff_ne, String.toList_ofList]
  exact fun hhead => h (List.mem_of_mem_head? hhead)

/-- **Joining a piece** adds its name, behind one slash in either case. -/
lemma exists_toList_join {base : String} (hbase : base ≠ "") {piece : List Char} (h : '/' ∉ piece) :
    ∃ front, (join base (String.ofList piece)).toList = front ++ '/' :: piece ∧
      (base.toList = front ∨ base.toList = front ++ ['/']) := by
  rw [join, isAbsolute_of_notMem h, if_neg Bool.false_ne_true]
  by_cases hslash : base.toList.getLast? = some '/'
  · obtain ⟨front, hfront⟩ := List.getLast?_eq_some_iff.mp hslash
    refine ⟨front, ?_, .inr hfront⟩
    rw [if_pos (.inr hslash), String.toList_append, hfront, String.toList_ofList, List.append_assoc,
      List.singleton_append]
  · refine ⟨base.toList, ?_, .inl rfl⟩
    rw [if_neg (not_or.mpr ⟨hbase, hslash⟩), String.toList_append, String.toList_append, List.append_assoc,
      String.toList_ofList (l := piece)]
    rfl

lemma names_join {base : String} (hbase : base ≠ "") {piece : List Char} (h : '/' ∉ piece) :
    names (join base (String.ofList piece)) = names base ++ nameOf piece := by
  obtain ⟨front, hjoin, hfront⟩ := exists_toList_join hbase h
  have hnames : names (join base (String.ofList piece)) =
      (splitChars '/' front).flatMap nameOf ++ nameOf piece := by
    rw [names, hjoin, splitChars_append_piece front h, List.flatMap_append, List.flatMap_singleton]
  rw [hnames, names]
  rcases hfront with hbase | hbase
  · rw [hbase]
  · rw [hbase, splitChars_append_piece front (List.not_mem_nil), List.flatMap_append, List.flatMap_singleton,
      nameOf_nil, List.append_nil]

lemma endsInSlash_join {base : String} (hbase : base ≠ "") {piece : List Char} (h : '/' ∉ piece) :
    endsInSlash (join base (String.ofList piece)) = piece.isEmpty := by
  obtain ⟨front, hjoin, -⟩ := exists_toList_join hbase h
  rw [endsInSlash, hjoin]
  cases hlast : piece.getLast? with
  | none =>
      obtain rfl := List.getLast?_eq_none_iff.mp hlast
      simp
  | some c =>
      have hmem : c ∈ piece := List.mem_of_getLast? hlast
      have hc : c ≠ '/' := fun hc => h (hc ▸ hmem)
      have hne : piece ≠ [] := List.ne_nil_of_mem hmem
      have hpiece : piece.isEmpty = false := by simpa using hne
      rw [hpiece, beq_eq_false_iff_ne, List.getLast?_append, List.getLast?_cons, hlast, Option.getD_some,
        Option.some_or]
      exact fun hslash => hc (Option.some.inj hslash)

lemma mem_join {base : String} {piece : List Char} {c : Char}
    (hc : c ∈ (join base (String.ofList piece)).toList) : c ∈ base.toList ∨ c ∈ piece ∨ c = '/' := by
  unfold join at hc
  split_ifs at hc
  · rw [String.toList_ofList] at hc
    exact .inr (.inl hc)
  · rw [String.toList_append, String.toList_ofList, List.mem_append] at hc
    exact hc.imp_right .inl
  · rw [String.toList_append, String.toList_append, String.toList_ofList (l := piece), List.mem_append,
      List.mem_append] at hc
    rcases hc with (hc | hc) | hc
    · exact .inl hc
    · exact .inr (.inr (List.mem_singleton.mp hc))
    · exact .inr (.inl hc)

/-- The components of an absolute path follow from its names. -/
lemma components_of_isAbsolute {path : String} (h : isAbsolute path = true) :
    components path = .root :: (names path).filterMap componentOf := by
  have hnames (pieces : List (List Char)) : pieces.filterMap (fun piece => componentOf (String.ofList piece)) =
      (pieces.flatMap nameOf).filterMap componentOf := by
    induction pieces with
    | nil => rfl
    | cons piece rest ih =>
        rw [List.flatMap_cons, List.filterMap_append, ← ih]
        by_cases hp : piece = []
        · simp [hp, componentOf]
        · rw [nameOf_of_ne_nil hp]
          cases hc : componentOf (String.ofList piece) <;> simp [hc]
  rw [components_eq, parts, opening, if_pos (isAbsolute_iff.mp h), named, hnames]
  rfl

end Path

/-! ## Walks -/

namespace FileTree

open WorkflowEngine.Path (isAbsolute endsInSlash names nameOf)

variable {tree : FileTree}

lemma steps_eq (path : String) : steps path = names path ++ if endsInSlash path then ["."] else [] := by
  rw [steps, Path.splitAt, Path.filter_map_ofList]
  rfl

/-- **A walk along two lists of names** is one walk after the other. -/
lemma walk_append (place : Place) (front back : List String) :
    tree.walk place (front ++ back) = tree.walk place front >>= fun next => tree.walk next back := by
  induction front generalizing place with
  | nil => rfl
  | cons name rest ih =>
      rw [List.cons_append, walk, walk]
      split_ifs
      · rfl
      · rfl
      · cases tree.node? (childPlace place name) with
        | none => rfl
        | some node => exact ih _

/-- The first turn of a walk. -/
lemma walk_cons_eq_ok {place last : Place} {name : String} {rest : List String}
    (h : tree.walk place (name :: rest) = .ok last) :
    tree.node? place = some .directory ∧ (tree.node? (childPlace place name)).isSome = true ∧
      tree.walk place [name] = .ok (childPlace place name) ∧
      tree.walk (childPlace place name) rest = .ok last := by
  rw [walk] at h ⊢
  split_ifs at h ⊢ with hdirectory
  have hplace : tree.node? place = some .directory := by
    rw [Bool.not_eq_true', isDirectoryAt] at hdirectory
    match hnode : tree.node? place with
    | none => simp [hnode] at hdirectory
    | some .directory => rfl
    | some (.file _) => simp [hnode, Node.isDirectory] at hdirectory
  cases hnode : tree.node? (childPlace place name) with
  | none =>
      rw [hnode] at h
      cases h
  | some node =>
      rw [hnode] at h
      exact ⟨hplace, rfl, rfl, h⟩

lemma walk_dot {place : Place} (h : tree.node? place = some .directory) :
    tree.walk place ["."] = .ok place := by
  have hshort : ¬ nameLimit < (Text.encode ".").length := by decide +kernel
  rw [walk, isDirectoryAt, h, if_neg (by simp [Node.isDirectory]), if_neg hshort]
  rw [show childPlace place "." = place from if_pos rfl, h]
  rfl

/-! ## Paths -/

/-- An absolute path that can be walked leads to a place. -/
structure Leads (tree : FileTree) (path : String) (place : Place) : Prop where
  absolute : isAbsolute path = true
  /-- There is no null character in the path. -/
  plain : Char.ofNat 0 ∉ path.toList
  walk : tree.walk [] (names path) = .ok place

namespace Leads

variable {path : String} {place : Place} {node : Node}

lemma ne_empty (h : tree.Leads path place) : path ≠ "" := by
  rintro rfl
  cases h.absolute

lemma locate_eq (h : tree.Leads path place) :
    tree.locate path = tree.walk place (if endsInSlash path then ["."] else []) := by
  have hcheck : checkPath path = .ok () := by
    rw [checkPath, if_neg (by simpa using h.plain), if_neg h.ne_empty]
  rw [locate, hcheck, start, if_pos h.absolute, steps_eq]
  change tree.walk [] (names path ++ if endsInSlash path then ["."] else []) = _
  rw [walk_append, h.walk]
  rfl

/-- **What is at the place** is found by the path; a slash at its end asks for a directory. -/
lemma nodeAt_eq (h : tree.Leads path place) (hnode : tree.node? place = some node)
    (hslash : endsInSlash path = true → node = .directory) : tree.nodeAt path = .ok node := by
  have hlocate : tree.locate path = .ok place := by
    rw [h.locate_eq]
    split_ifs with hends
    · rw [hslash hends] at hnode
      exact walk_dot hnode
    · rfl
  refine bind_eq_ok.mpr ⟨place, hlocate, ?_⟩
  rw [hnode]
  rfl

lemma isDirectory (h : tree.Leads path place) (hnode : tree.node? place = some .directory) :
    tree.isDirectory path = true := by
  rw [FileTree.isDirectory, h.nodeAt_eq hnode fun _ => rfl]

lemma exists? (h : tree.Leads path place) (hnode : tree.node? place = some node)
    (hslash : endsInSlash path = true → node = .directory) : tree.exists? path = true := by
  rw [FileTree.exists?, h.nodeAt_eq hnode hslash]

/-- A path leads on by a piece that is joined to it. -/
lemma join (h : tree.Leads path place) {piece : List Char} (hslash : '/' ∉ piece)
    (hplain : Char.ofNat 0 ∉ piece) {next : Place} (hwalk : tree.walk place (nameOf piece) = .ok next) :
    tree.Leads (Path.join path (String.ofList piece)) next where
  absolute := Path.isAbsolute_join h.absolute _
  plain := by
    intro hmem
    rcases Path.mem_join hmem with hmem | hmem | hnull
    · exact h.plain hmem
    · exact hplain hmem
    · exact absurd hnull (by decide)
  walk := by
    rw [Path.names_join h.ne_empty hslash, walk_append, h.walk]
    exact hwalk

end Leads

lemma isFile_congr {path other : String} (h : tree.nodeAt path = tree.nodeAt other) :
    tree.isFile path = tree.isFile other := by
  rw [isFile, isFile, h]

/-- **An absolute path to a file** leads to its place, and does not end in a slash. -/
lemma leads_of_isFile {path : String} (habsolute : isAbsolute path = true) (h : tree.isFile path = true) :
    ∃ place bytes, tree.Leads path place ∧ tree.node? place = some (.file bytes) ∧
      endsInSlash path = false ∧ tree.nodeAt path = .ok (.file bytes) := by
  unfold isFile at h
  split at h
  · next bytes hnode =>
      have hnodeAt := hnode
      rw [nodeAt] at hnode
      obtain ⟨place, hlocate, hnode⟩ := bind_eq_ok.mp hnode
      have hplace : tree.node? place = some (.file bytes) := by
        split at hnode
        · next node hfound => rw [hfound, Except.ok.inj hnode]
        · cases hnode
      rw [locate] at hlocate
      obtain ⟨_, hcheck, hwalk⟩ := bind_eq_ok.mp hlocate
      have hplain : Char.ofNat 0 ∉ path.toList := by
        intro hmem
        rw [checkPath, if_pos (by simpa using hmem)] at hcheck
        cases hcheck
      rw [start, if_pos habsolute, steps_eq, walk_append] at hwalk
      obtain ⟨before, hbefore, hlast⟩ := bind_eq_ok.mp hwalk
      have hends : endsInSlash path = false := by
        -- A slash at the end would make a directory of the place.
        by_contra hends
        rw [Bool.not_eq_false] at hends
        rw [hends, if_pos rfl] at hlast
        obtain ⟨hdirectory, -, -, hlast⟩ := walk_cons_eq_ok hlast
        obtain rfl : before = place := Except.ok.inj hlast
        rw [hdirectory] at hplace
        cases hplace
      rw [hends, if_neg Bool.false_ne_true] at hlast
      obtain rfl : before = place := Except.ok.inj hlast
      exact ⟨before, bytes, ⟨habsolute, hplain, hbefore⟩, hplace, hends, hnodeAt⟩
  · cases h

end FileTree

end WorkflowEngine
