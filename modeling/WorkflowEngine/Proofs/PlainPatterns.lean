import WorkflowEngine.Proofs.Outcomes
import WorkflowEngine.Proofs.Walks

/-!
# Patterns without special characters

A text without stars, question marks and opening brackets is read as a pattern that stands for itself.

**Reading.**  Each character of such a text stands for itself (`tokens_of_plain`), so the patterns of its names
are literal (`literal?_literal`).

**Searching.**  A search for literal names joins them one after the other, and finds what they lead to
(`below_literal`).  A path to a file that has no special characters therefore finds the file, and nothing
else: `glob_of_plain`.
-/

namespace WorkflowEngine.Glob

open WorkflowEngine.Path (isAbsolute endsInSlash names nameOf splitChars)

/-! ## Reading -/

/-- Whether a character does not always stand for itself in a pattern. -/
def isSpecial (c : Char) : Bool := c == '*' || c == '?' || c == '['

/-- Whether a text has no special characters. -/
def IsPlain (text : String) : Prop := ∀ c ∈ text.toList, isSpecial c = false

lemma isPlain_iff {text : String} : IsPlain text ↔ text.toList.any isSpecial = false := by
  simp [IsPlain]

instance (text : String) : Decidable (IsPlain text) := decidable_of_iff _ isPlain_iff.symm

lemma ne_of_isSpecial {c : Char} (h : isSpecial c = false) : c ≠ '*' ∧ c ≠ '?' ∧ c ≠ '[' := by
  simpa [isSpecial, and_assoc] using h

lemma tokensFrom_of_plain {cs : List Char} (h : ∀ c ∈ cs, isSpecial c = false) (before : Option Char)
    (position : Nat) {fuel : Nat} (hfuel : cs.length ≤ fuel) :
    tokensFrom before position fuel cs = .ok (cs.map .char) := by
  induction cs generalizing before position fuel with
  | nil => cases fuel <;> rfl
  | cons c cs ih =>
      obtain ⟨hc, hcs⟩ := List.forall_mem_cons.mp h
      obtain ⟨hstar, hany, hclass⟩ := ne_of_isSpecial hc
      match fuel with
      | fuel + 1 =>
          rw [tokensFrom, ih hcs _ _ (Nat.le_of_succ_le_succ hfuel)]
          · rfl
          · exact hany
          · exact hstar
          · exact hclass

lemma tokens_of_plain {cs : List Char} (h : ∀ c ∈ cs, isSpecial c = false) :
    tokens cs = .ok (cs.map .char) :=
  tokensFrom_of_plain h none 0 (Nat.le_succ _)

/-- The pattern that stands for a name and for nothing else. -/
def literal (name : List Char) : NamePattern := ⟨name.map .char⟩

lemma mapM_of_char {f : Token → Option Char} (hf : ∀ c, f (.char c) = some c) (name : List Char) :
    (name.map .char).mapM f = some name := by
  induction name with
  | nil => rfl
  | cons c name ih =>
      rw [List.map_cons, List.mapM_cons, hf, ih]
      rfl

lemma literal?_literal (name : List Char) : (literal name).literal? = some (String.ofList name) :=
  congrArg (Option.map String.ofList) (mapM_of_char (fun _ => rfl) name)

/-- Names without special characters are read as literal patterns. -/
lemma mapM_parse_of_plain {pieces : List (List Char)}
    (h : ∀ piece ∈ pieces, ∀ c ∈ piece, isSpecial c = false) :
    pieces.mapM NamePattern.parse = .ok (pieces.map literal) := by
  rw [mapM_eq_ok_iff, List.forall₂_map_right_iff, List.forall₂_same]
  intro piece hpiece
  rw [NamePattern.parse, tokens_of_plain (h piece hpiece)]
  rfl

/-! ## Names -/

/-- The pieces between slashes have no slashes, and no characters that the path does not have. -/
lemma of_mem_splitChars : ∀ {cs piece : List Char}, piece ∈ splitChars '/' cs → '/' ∉ piece ∧ piece ⊆ cs
  | [], piece, h => by
      obtain rfl := List.mem_singleton.mp h
      exact ⟨List.not_mem_nil, List.nil_subset _⟩
  | c :: cs, piece, h => by
      by_cases hc : c = '/'
      · rw [splitChars, if_pos hc] at h
        rcases List.mem_cons.mp h with rfl | h
        · exact ⟨List.not_mem_nil, List.nil_subset _⟩
        · exact (of_mem_splitChars h).imp_right (List.subset_cons_of_subset c)
      · obtain ⟨first, others, hcs, hsplit⟩ := Path.splitChars_cons hc cs
        rw [hsplit] at h
        rcases List.mem_cons.mp h with rfl | h
        · obtain ⟨hslash, hsubset⟩ := of_mem_splitChars (hcs ▸ List.mem_cons_self : first ∈ splitChars '/' cs)
          exact ⟨fun hmem => (List.mem_cons.mp hmem).elim (hc ·.symm) hslash, List.cons_subset_cons c hsubset⟩
        · exact (of_mem_splitChars (hcs ▸ List.mem_cons_of_mem first h)).imp_right
            (List.subset_cons_of_subset c)

/-- The last piece of a path that does not end in a slash is not empty. -/
lemma getLast?_splitChars : ∀ {cs : List Char}, cs ≠ [] → cs.getLast? ≠ some '/' →
    (splitChars '/' cs).getLast? ≠ some []
  | [c], _, hlast => by
      rw [Path.splitChars_of_notMem (by simpa [eq_comm] using hlast)]
      simp
  | c :: d :: cs, _, hlast => by
      rw [List.getLast?_cons_cons] at hlast
      have hrest := getLast?_splitChars (List.cons_ne_nil d cs) hlast
      by_cases hc : c = '/'
      · rwa [splitChars, if_pos hc, List.getLast?_cons_of_ne_nil (Path.splitChars_ne_nil _ _)]
      · obtain ⟨first, others, hcs, hsplit⟩ := Path.splitChars_cons hc (d :: cs)
        rw [hcs] at hrest
        rw [hsplit]
        cases others with
        | nil => simp
        | cons second others => rwa [List.getLast?_cons_cons] at hrest ⊢

lemma flatMap_nameOf_ne_nil {pieces : List (List Char)} (hne : pieces ≠ [])
    (hlast : pieces.getLast? ≠ some []) :
    pieces.flatMap nameOf ≠ [] := by
  obtain ⟨front, piece, rfl⟩ := List.eq_nil_or_concat' pieces |>.resolve_left hne
  have hpiece : piece ≠ [] := by simpa using hlast
  rw [List.flatMap_append, List.flatMap_singleton, Path.nameOf_of_ne_nil hpiece]
  simp

/-! ## Searching -/

section Search

variable {s : Search}

/-- A walk along the name of a piece, and on. -/
lemma exists_next {place last : Place} {piece : List Char} {more : List String}
    (hdirectory : s.tree.node? place = some .directory)
    (h : s.tree.walk place (nameOf piece ++ more) = .ok last) :
    ∃ next node, s.tree.walk place (nameOf piece) = .ok next ∧ s.tree.walk next more = .ok last ∧
      s.tree.node? next = some node ∧ (piece = [] → node = .directory) := by
  by_cases hpiece : piece = []
  · rw [hpiece] at h
    exact ⟨place, .directory, by rw [hpiece]; rfl, h, hdirectory, fun _ => rfl⟩
  · rw [Path.nameOf_of_ne_nil hpiece, List.singleton_append] at h
    obtain ⟨-, hnode, hname, hmore⟩ := FileTree.walk_cons_eq_ok h
    obtain ⟨node, hnode⟩ := Option.isSome_iff_exists.mp hnode
    exact ⟨_, node, by rw [Path.nameOf_of_ne_nil hpiece, hname], hmore, hnode, fun h => absurd h hpiece⟩

/-- **A search for literal names** finds the path that is joined from them, if it leads to a node. -/
lemma below_literal (hfiles : s.directoriesOnly = false) :
    ∀ {pieces : List (List Char)} {path : String} {place last : Place} {fuel : Nat},
      (∀ piece ∈ pieces, '/' ∉ piece ∧ Char.ofNat 0 ∉ piece) → pieces ≠ [] → pieces.getLast? ≠ some [] →
      s.tree.Leads path place → s.tree.walk place (pieces.flatMap nameOf) = .ok last →
      pieces.length ≤ fuel →
      ∃ found, s.below fuel (pieces.map literal) path = [found] ∧ s.tree.Leads found last ∧
        names found = names path ++ pieces.flatMap nameOf ∧ endsInSlash found = false
  | piece :: rest, path, place, last, fuel + 1, hpieces, _, hlast, hleads, hwalk, hfuel => by
      obtain ⟨⟨hslash, hplain⟩, hrest⟩ := List.forall_mem_cons.mp hpieces
      have hdirectory : s.tree.node? place = some .directory := by
        obtain ⟨name, more, hnames⟩ :=
          List.exists_cons_of_ne_nil (flatMap_nameOf_ne_nil (List.cons_ne_nil piece rest) hlast)
        rw [hnames] at hwalk
        exact (FileTree.walk_cons_eq_ok hwalk).1
      rw [List.flatMap_cons] at hwalk
      obtain ⟨next, node, hname, hmore, hnode, hempty⟩ := exists_next hdirectory hwalk
      have hjoin := hleads.join hslash hplain hname
      have hends := Path.endsInSlash_join hleads.ne_empty hslash
      have hnames := Path.names_join hleads.ne_empty hslash
      have hthere : (if String.ofList piece = "." ∨ String.ofList piece = ".." then s.tree.isDirectory path
          else s.tree.exists? (Path.join path (String.ofList piece))) = true := by
        split_ifs
        · exact hleads.isDirectory hdirectory
        · exact hjoin.exists? hnode fun hslash => hempty (by simpa [hends] using hslash)
      rw [List.map_cons, Search.below, literal?_literal]
      dsimp only
      rw [if_pos hthere]
      cases rest with
      | nil =>
          have hpiece : piece ≠ [] := by simpa using hlast
          obtain rfl : next = last := Except.ok.inj hmore
          refine ⟨_, ?_, hjoin, by rw [hnames]; simp, by rw [hends]; simpa using hpiece⟩
          rw [List.map_nil, List.isEmpty_nil, if_pos rfl, Search.keep, hfiles, Bool.false_and,
            if_neg Bool.false_ne_true]
      | cons second others =>
          rw [List.getLast?_cons_cons] at hlast
          obtain ⟨found, hbelow, hfound, hjoined, hclosed⟩ := below_literal hfiles hrest (List.cons_ne_nil _ _)
            hlast hjoin hmore (Nat.le_of_succ_le_succ hfuel)
          refine ⟨found, ?_, hfound, ?_, hclosed⟩
          · rw [List.map_cons, List.isEmpty_cons, if_neg Bool.false_ne_true, ← List.map_cons, hbelow]
          · rw [List.flatMap_cons, hjoined, hnames, List.append_assoc]

end Search

/-- A path that opens with slashes has the names of what follows them. -/
lemma names_of_slashes {slashes : List Char} (h : ∀ c ∈ slashes, c = '/') (rest : List Char) :
    names (String.ofList (slashes ++ rest)) = (splitChars '/' rest).flatMap nameOf := by
  rw [names, String.toList_ofList]
  induction slashes with
  | nil => rfl
  | cons c slashes ih =>
      obtain ⟨hc, hslashes⟩ := List.forall_mem_cons.mp h
      rw [List.cons_append, splitChars, if_pos hc, List.flatMap_cons, Path.nameOf_nil, List.nil_append,
        ih hslashes]

/-- The slashes that open a path lead to the root. -/
lemma leads_of_slashes (tree : FileTree) {slashes : List Char} (hne : slashes ≠ [])
    (h : ∀ c ∈ slashes, c = '/') : tree.Leads (String.ofList slashes) [] where
  absolute := by
    obtain ⟨c, rest, rfl⟩ := List.exists_cons_of_ne_nil hne
    rw [Path.isAbsolute_iff, String.toList_ofList, List.head?_cons, h c List.mem_cons_self]
  plain := by
    rw [String.toList_ofList]
    exact fun hmem => absurd (h _ hmem) (by decide)
  walk := by
    have hnames := names_of_slashes h []
    rw [List.append_nil] at hnames
    rw [hnames]
    rfl

/-- An absolute path that does not end in a slash goes on after the slashes that open it. -/
lemma exists_slashes {path : String} (habsolute : isAbsolute path = true) (hends : endsInSlash path = false) :
    ∃ slashes rest, path.toList = slashes ++ rest ∧ path.toList.takeWhile (· = '/') = slashes ∧
      slashes ≠ [] ∧ (∀ c ∈ slashes, c = '/') ∧ rest ≠ [] ∧ rest.getLast? ≠ some '/' := by
  have hall : ∀ c ∈ path.toList.takeWhile (· = '/'), c = '/' := fun c hc => by
    simpa using List.mem_takeWhile_imp hc
  have hopen : path.toList.takeWhile (· = '/') ≠ [] := by
    obtain ⟨rest, hrest⟩ := List.head?_eq_some_iff.mp (Path.isAbsolute_iff.mp habsolute)
    rw [hrest]
    simp
  have hlast : path.toList.getLast? ≠ some '/' := by simpa [endsInSlash] using hends
  have hpath := List.takeWhile_append_dropWhile (p := (· = '/')) (l := path.toList)
  refine ⟨_, path.toList.dropWhile (· = '/'), hpath.symm, rfl, hopen, hall, ?_⟩
  have hmore : path.toList.dropWhile (· = '/') ≠ [] := by
    intro hempty
    rw [hempty, List.append_nil] at hpath
    obtain ⟨front, c, hc⟩ := List.eq_nil_or_concat' _ |>.resolve_left hopen
    rw [← hpath, hc, List.getLast?_concat] at hlast
    exact hlast (congrArg some (hall c (hc ▸ List.mem_concat_self)))
  refine ⟨hmore, fun hslash => hlast ?_⟩
  rw [← hpath, List.getLast?_append, hslash, Option.some_or]

/-- **A path without special characters** that leads to a file is a pattern for that file alone. -/
theorem glob_of_plain {tree : FileTree} {path : String} (habsolute : isAbsolute path = true)
    (hplain : IsPlain path) (hfile : tree.isFile path = true) :
    ∃ found, glob tree path = .ok [found] ∧ Path.components found = Path.components path ∧
      tree.nodeAt found = tree.nodeAt path := by
  obtain ⟨place, bytes, hleads, hnode, hends, hnodeAt⟩ := FileTree.leads_of_isFile habsolute hfile
  obtain ⟨slashes, rest, hpath, hslashes, hopen, hall, hmore, hlast⟩ := exists_slashes habsolute hends
  have hdrop : path.toList.drop slashes.length = rest := by rw [hpath, List.drop_left]
  have hpieces := getLast?_splitChars hmore hlast
  have hnames : names path = (splitChars '/' rest).flatMap nameOf := by
    rw [← names_of_slashes hall rest, ← hpath, String.ofList_toList]
  have hmem : ∀ piece ∈ splitChars '/' rest, piece ⊆ path.toList := fun piece hpiece c hc =>
    hpath ▸ List.mem_append_right slashes ((of_mem_splitChars hpiece).2 hc)
  have hparse := mapM_parse_of_plain fun piece hpiece c hc => hplain c (hmem piece hpiece hc)
  have hfuel : (splitChars '/' rest).length ≤
      (((splitChars '/' rest).map literal).length + 1) * (Search.levels tree + 2) := by
    rw [List.length_map]
    exact (Nat.le_succ _).trans (Nat.le_mul_of_pos_right _ (Nat.succ_pos _))
  -- The search starts at the root, with a pattern for each name that the path has.
  obtain ⟨found, hbelow, hfound, hjoined, hclosed⟩ :=
    below_literal (s := ⟨tree, false⟩) rfl
      (fun piece hpiece => ⟨(of_mem_splitChars hpiece).1, fun hnull => hleads.plain (hmem piece hpiece hnull)⟩)
      (Path.splitChars_ne_nil '/' rest) hpieces (leads_of_slashes tree hopen hall) (hnames ▸ hleads.walk) hfuel
  have hsame : names found = names path := by
    rw [hjoined, hnames, ← List.append_nil slashes, names_of_slashes hall]
    rfl
  refine ⟨found, ?_, ?_, ?_⟩
  · have hnonempty : ¬ rest.isEmpty = true := by simpa using hmore
    rw [glob, tokens_of_plain hplain, hslashes, hends]
    dsimp only [bind, Except.bind]
    rw [hdrop, if_neg hnonempty, namesOf, if_neg hpieces, hparse]
    exact congrArg Except.ok hbelow
  · rw [Path.components_of_isAbsolute hfound.absolute, Path.components_of_isAbsolute habsolute, hsame]
  · rw [hfound.nodeAt_eq hnode fun hslash => absurd hslash (by simp [hclosed]), hnodeAt]

end WorkflowEngine.Glob
