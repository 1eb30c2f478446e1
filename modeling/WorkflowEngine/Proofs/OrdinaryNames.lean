import WorkflowEngine.Proofs.DirectoryNames
import WorkflowEngine.Proofs.Paths

/-!
# Directory names as components of paths

The name of a task's directory comes from a text that the author of a document had a part in.  Whatever that
text is, the name is an ordinary one.

**Characters.**  A directory name is made of letters, digits, dots, hyphens, underscores and percent signs
(`isPortable_of_mem_directoryName`).

**Components.**  A text without slashes that does not open with a dot is no dot segment, so it is one component
of a path and goes one level down (`isName_of_head`).

**Tasks.**  `task_directories_ordinary`: the paths of tasks have different names, each of them ordinary.
-/

namespace WorkflowEngine

namespace Path

/-! ## Characters -/

/-- A character that means the same in every file system: an ASCII letter or digit, or one of four marks. -/
def IsPortable (c : Char) : Prop := c.isAlphanum = true ∨ c ∈ ['.', '-', '_', '%']

lemma isPortable_of_isPlainInName {c : Char} (h : isPlainInName c = true) : IsPortable c := by
  simp only [isPlainInName, Bool.or_eq_true, beq_iff_eq] at h
  rcases h with (h | rfl) | rfl
  · exact .inl h
  · exact .inr (by decide)
  · exact .inr (by decide)

lemma isPortable_upperHexDigit (n : Nat) : IsPortable (upperHexDigit n) := by
  have hall : ∀ k < 16, (Nat.digitChar k).toUpper.isAlphanum = true := by decide
  exact .inl (hall (n % 16) (Nat.mod_lt n (by decide)))

lemma isPortable_of_mem_nameChar {c d : Char} (h : d ∈ nameChar c) : IsPortable d := by
  unfold nameChar at h
  split_ifs at h with hplain hslash
  · obtain rfl := List.mem_singleton.mp h
    exact isPortable_of_isPlainInName hplain
  · obtain rfl := List.mem_singleton.mp h
    exact .inr (by decide)
  · obtain ⟨b, -, hb⟩ := List.mem_flatMap.mp h
    simp only [escapedByte, List.mem_cons, List.not_mem_nil, or_false] at hb
    rcases hb with rfl | rfl | rfl
    · exact .inr (by decide)
    · exact isPortable_upperHexDigit _
    · exact isPortable_upperHexDigit _

/-- Every character of a directory name is portable, whatever the identifier is. -/
lemma isPortable_of_mem_directoryName {id : String} {c : Char} (h : c ∈ (directoryName id).toList) :
    IsPortable c := by
  rw [directoryName, String.toList_ofList] at h
  obtain ⟨_, -, hc⟩ := List.mem_flatMap.mp h
  exact isPortable_of_mem_nameChar hc

/-! ## Components -/

/-- A text without slashes that does not open with a dot is a name. -/
lemma isName_of_head {name : String} {c : Char} (hslash : '/' ∉ name.toList)
    (hhead : name.toList.head? = some c) (hdot : c ≠ '.') : IsName name := by
  have hne {text : String} (htext : text.toList.head? ≠ some c) : name ≠ text := by
    rintro rfl
    exact htext hhead
  have hdots : (some '.' : Option Char) ≠ some c := fun h => hdot (Option.some.inj h).symm
  refine ⟨hslash, ?_⟩
  rw [componentOf, if_neg, if_neg]
  · exact hne hdots
  · exact not_or.mpr ⟨hne (by simp), hne hdots⟩

/-- A name is a path of one component. -/
lemma components_of_isName {name : String} (h : IsName name) : components name = [.normal name] := by
  have hjoin := components_join "" h
  rw [join, isAbsolute_of_isName h, if_neg Bool.false_ne_true, if_pos (.inl rfl), String.empty_append]
    at hjoin
  exact hjoin

end Path

/-! ## Tasks -/

/-- Whether a text opens as the paths of tasks do, with the id of the process that a run starts with. -/
def IsTaskPath (path : String) : Prop := "#main".toList <+: path.toList

section Tasks

variable {path : String}

lemma IsTaskPath.exists_rest (h : IsTaskPath path) :
    ∃ rest, path.toList = '#' :: 'm' :: rest ∧ path.toList.dropWhile (· = '#') = 'm' :: rest := by
  obtain ⟨rest, hrest⟩ := h
  refine ⟨'a' :: 'i' :: 'n' :: rest, hrest.symm, ?_⟩
  rw [← hrest]
  rfl

lemma IsTaskPath.inj {other : String} (h : IsTaskPath path) (h' : IsTaskPath other)
    (heq : Path.directoryName path = Path.directoryName other) : path = other := by
  obtain ⟨rest, hpath, hdrop⟩ := h.exists_rest
  obtain ⟨rest', hother, hdrop'⟩ := h'.exists_rest
  have hrests := Path.directoryName_inj heq
  rw [hdrop, hdrop'] at hrests
  exact String.toList_inj.mp (by rw [hpath, hother, hrests])

lemma IsTaskPath.isName (h : IsTaskPath path) : Path.IsName (Path.directoryName path) := by
  obtain ⟨rest, -, hdrop⟩ := h.exists_rest
  refine Path.isName_of_head (c := 'm') (Path.slash_notMem_directoryName path) ?_ (by decide)
  rw [Path.directoryName, String.toList_ofList, hdrop]
  rfl

/-- **The directories of tasks have ordinary names.**  Two paths of tasks have different names, and the name
of each is a single component of portable characters, never a dot segment; so the directories of a task lie
directly in those of its run. -/
theorem task_directories_ordinary (h : IsTaskPath path) :
    (∀ other, IsTaskPath other → other ≠ path → Path.directoryName other ≠ Path.directoryName path) ∧
    (∀ c ∈ (Path.directoryName path).toList, Path.IsPortable c ∧ c ≠ '/') ∧
    Path.directoryName path ≠ "." ∧ Path.directoryName path ≠ ".." ∧
    Path.components (Path.directoryName path) = [.normal (Path.directoryName path)] ∧
    ∀ run : RunDirectory,
      Path.components (TaskDirectory.of run path).root =
        Path.components run.work ++ [.normal (Path.directoryName path)] ∧
      Path.components (TaskDirectory.of run path).scratch =
        Path.components run.temp ++ [.normal (Path.directoryName path)] := by
  have hname : Path.IsName (Path.directoryName path) := h.isName
  have hdots {text : String} (htext : Path.componentOf text ≠ some (.normal text)) :
      Path.directoryName path ≠ text := by
    rintro rfl
    exact htext hname.2
  refine ⟨fun other hother hne heq => hne (hother.inj h heq), fun c hc => ⟨?_, ?_⟩, ?_, ?_, ?_,
    fun run => ⟨?_, ?_⟩⟩
  · exact Path.isPortable_of_mem_directoryName hc
  · rintro rfl
    exact hname.1 hc
  · exact hdots (by decide)
  · exact hdots (by decide)
  · exact Path.components_of_isName hname
  · rw [TaskDirectory.of, Path.components_join run.work hname]
  · rw [TaskDirectory.of, Path.components_join run.temp hname]

/-- A step whose name imitates an escape, next to the step that it imitates and one with dots in its name. -/
theorem imitated_step_ordinary :
    IsTaskPath "#main/a_b" ∧ IsTaskPath "#main/a%5Fb" ∧
      Path.directoryName "#main/a%5Fb" ≠ Path.directoryName "#main/a_b" ∧
      Path.components (Path.directoryName "#main/a_b") = [.normal "main_a%5Fb"] := by
  have hstep : IsTaskPath "#main/a_b" := ⟨"/a_b".toList, by decide +kernel⟩
  have himitation : IsTaskPath "#main/a%5Fb" := ⟨"/a%5Fb".toList, by decide +kernel⟩
  obtain ⟨hseparate, -, -, -, hcomponents, -⟩ := task_directories_ordinary hstep
  have hname : Path.directoryName "#main/a_b" = "main_a%5Fb" := by decide +kernel
  refine ⟨hstep, himitation, hseparate _ himitation (by decide), ?_⟩
  rw [hcomponents, hname]

end Tasks

end WorkflowEngine
