import WorkflowEngine.Binding.Conformance
import WorkflowEngine.CommandLine.Assembly
import WorkflowEngine.Proofs.Outcomes

/-!
# What has no words

A value becomes words of a command line, or is refused.  A record is refused wherever it stands in an array.
An array is refused where one word is asked for: as an item of an array that is joined, or of one whose items
have no binding.  Arrays whose items have bindings go on item by item, to any depth.

**Places.**  `Meets`: the arrays that a value is taken apart into, each with its binding and its declaration.

**Values.**  `fails_render_iff` says which values are refused, and `refused_on_command_line` says it with the
bindings of a command line in view: a record, or an array in the place of a word.
-/

namespace WorkflowEngine.CommandLine

open Binding (conforms)
open Document (DataType InputBinding)

/-! ## Places -/

/-- A record is reachable through arrays. -/
inductive HoldsRecord : Value → Prop
  | record (fields : List (String × Value)) : HoldsRecord (.record fields)
  | item {items : List Value} {item : Value} (mem : item ∈ items) (h : HoldsRecord item) :
      HoldsRecord (.array items)

/-- An array with some property is met when a value is taken apart: the value itself, or an array inside an item
whose binding is declared. -/
inductive Meets (P : InputBinding → Option DataType → List Value → Prop) :
    InputBinding → Option DataType → Value → Prop
  | here {binding : InputBinding} {declared : Option DataType} {items : List Value}
      (h : P binding declared items) : Meets P binding declared (.array items)
  | inside {binding nested : InputBinding} {declared type : Option DataType} {items : List Value} {item : Value}
      (apart : binding.itemSeparator = none) (bound : itemDeclaration declared = (type, some nested))
      (mem : item ∈ items) (h : Meets P nested type item) : Meets P binding declared (.array items)

/-- Each item of an array has to be one word: the items are joined, or have no binding of their own. -/
def AsksForWords (binding : InputBinding) (declared : Option DataType) : Prop :=
  binding.itemSeparator ≠ none ∨ (itemDeclaration declared).2 = none

/-- An array is an item where a word is asked for. -/
def NestsArray (binding : InputBinding) (declared : Option DataType) (items : List Value) : Prop :=
  AsksForWords binding declared ∧ ∃ inner, .array inner ∈ items

/-- Null is an item of an array whose items are joined. -/
def JoinsNull (binding : InputBinding) (_ : Option DataType) (items : List Value) : Prop :=
  binding.itemSeparator ≠ none ∧ .null ∈ items

lemma holdsRecord_array {items : List Value} :
    HoldsRecord (.array items) ↔ ∃ item ∈ items, HoldsRecord item := by
  constructor
  · rintro (_ | ⟨mem, h⟩)
    exact ⟨_, mem, h⟩
  · rintro ⟨item, mem, h⟩
    exact .item mem h

lemma not_holdsRecord_int (n : Int) : ¬ HoldsRecord (.int n) := fun h => nomatch h

lemma HoldsRecord.cases {v : Value} (h : HoldsRecord v) :
    (∃ items, v = .array items) ∨ ∃ fields, v = .record fields := by
  cases h with
  | record fields => exact .inr ⟨fields, rfl⟩
  | item mem _ => exact .inl ⟨_, rfl⟩

section Meets

variable {P : InputBinding → Option DataType → List Value → Prop} {binding nested : InputBinding}
  {declared type : Option DataType} {items : List Value}

/-- Where words are asked for, nothing below is met. -/
lemma meets_of_asksForWords (h : AsksForWords binding declared) :
    Meets P binding declared (.array items) ↔ P binding declared items := by
  refine ⟨?_, .here⟩
  rintro (hP | ⟨apart, bound, -, -⟩)
  · exact hP
  · rcases h with hjoined | hunbound
    · exact absurd apart hjoined
    · rw [bound] at hunbound
      cases hunbound

lemma meets_of_bound (apart : binding.itemSeparator = none)
    (bound : itemDeclaration declared = (type, some nested)) :
    Meets P binding declared (.array items) ↔
      P binding declared items ∨ ∃ item ∈ items, Meets P nested type item := by
  constructor
  · rintro (hP | ⟨-, bound', mem, h⟩)
    · exact .inl hP
    · rw [bound] at bound'
      obtain ⟨rfl, hnested⟩ := Prod.mk.inj bound'
      obtain rfl := Option.some.inj hnested
      exact .inr ⟨_, mem, h⟩
  · rintro (hP | ⟨item, mem, h⟩)
    · exact .here hP
    · exact .inside apart bound mem h

lemma not_asksForWords (apart : binding.itemSeparator = none)
    (bound : itemDeclaration declared = (type, some nested)) : ¬ AsksForWords binding declared := by
  rintro (hjoined | hunbound)
  · exact hjoined apart
  · rw [bound] at hunbound
    cases hunbound

end Meets

/-! ## Values -/

section Values

variable {shell : Bool} {binding nested : InputBinding} {declared type : Option DataType}

lemma fails_wordOf {v : Value} :
    Fails (wordOf v) ↔ v = .null ∨ (∃ items, v = .array items) ∨ ∃ fields, v = .record fields := by
  cases v <;> simp [wordOf]

lemma fails_itemWords {v : Value} :
    Fails (itemWords shell binding v) ↔ (∃ items, v = .array items) ∨ ∃ fields, v = .record fields := by
  cases v <;> simp [itemWords, Value.isNull, fails_wordOf]

lemma fails_renderItems : ∀ {items : List Value},
    Fails (renderItems shell binding declared items) ↔ ∃ item ∈ items, Fails (render shell binding declared item)
  | [] => by simp [renderItems]
  | item :: rest => by
      rw [renderItems, List.exists_mem_cons_iff, ← fails_renderItems]
      cases render shell binding declared item with
      | error failure => exact iff_of_true ⟨failure, rfl⟩ (.inl ⟨failure, rfl⟩)
      | ok words =>
          refine (fails_bind_pure _ (words ++ ·)).trans ⟨.inr, fun h => h.resolve_left ?_⟩
          exact not_fails_ok words

lemma fails_render_joined {items : List Value} (joined : binding.itemSeparator ≠ none) :
    Fails (render shell binding declared (.array items)) ↔ ∃ item ∈ items, Fails (wordOf item) := by
  obtain ⟨separator, hseparator⟩ := Option.ne_none_iff_exists'.mp joined
  rw [render, hseparator]
  cases items with
  | nil => simp
  | cons item rest => exact (fails_bind_pure _ _).trans (fails_mapM _ _)

lemma fails_render_unbound {items : List Value} (apart : binding.itemSeparator = none)
    (unbound : (itemDeclaration declared).2 = none) :
    Fails (render shell binding declared (.array items)) ↔
      ∃ item ∈ items, Fails (itemWords shell binding item) := by
  obtain ⟨type, hdeclared⟩ : ∃ type, itemDeclaration declared = (type, none) := ⟨_, Prod.ext rfl unbound⟩
  rw [render, apart, hdeclared]
  cases items with
  | nil => simp
  | cons item rest => exact (fails_bind_pure _ _).trans (fails_mapM _ _)

lemma fails_render_bound {items : List Value} (apart : binding.itemSeparator = none)
    (bound : itemDeclaration declared = (type, some nested)) :
    Fails (render shell binding declared (.array items)) ↔
      ∃ item ∈ items, Fails (render shell nested type item) := by
  rw [render, apart, bound, ← fails_renderItems]
  cases items with
  | nil => simp [renderItems]
  | cons item rest => exact fails_bind_pure _ _

/-- An item that cannot be one word is a record, or an array that holds none or some. -/
lemma exists_noWord_iff {items : List Value} (words : AsksForWords binding declared) :
    (∃ item ∈ items, (∃ inner, item = .array inner) ∨ ∃ fields, item = .record fields) ↔
      HoldsRecord (.array items) ∨ Meets NestsArray binding declared (.array items) := by
  rw [holdsRecord_array, meets_of_asksForWords words]
  constructor
  · rintro ⟨_, mem, ⟨inner, rfl⟩ | ⟨fields, rfl⟩⟩
    · exact .inr ⟨words, inner, mem⟩
    · exact .inl ⟨_, mem, .record fields⟩
  · rintro (⟨item, mem, h⟩ | ⟨-, inner, mem⟩)
    · exact ⟨item, mem, h.cases⟩
    · exact ⟨_, mem, .inl ⟨inner, rfl⟩⟩

/-- Which values are refused. -/
lemma fails_render_iff (shell : Bool) : ∀ (value : Value) (binding : InputBinding) (declared : Option DataType),
    Fails (render shell binding declared value) ↔
      (HoldsRecord value ∨ Meets NestsArray binding declared value) ∨ Meets JoinsNull binding declared value
  | .record fields, binding, declared =>
      iff_of_true (by rw [render]; exact fails_error _) (.inl (.inl (.record fields)))
  | .array items, binding, declared => by
      by_cases joined : binding.itemSeparator ≠ none
      · -- Every item is to be one word, null too.
        have words : AsksForWords binding declared := .inl joined
        rw [fails_render_joined joined, ← exists_noWord_iff words, meets_of_asksForWords words]
        simp only [fails_wordOf, and_or_left, exists_or, exists_eq_right, JoinsNull, and_iff_right joined]
        exact or_comm
      have apart : binding.itemSeparator = none := not_not.mp joined
      rcases hbound : itemDeclaration declared with ⟨type, _ | nested⟩
      · -- Every item is to be one word, or null.
        have words : AsksForWords binding declared := .inr (by rw [hbound])
        rw [fails_render_unbound apart (by rw [hbound]), ← exists_noWord_iff words, meets_of_asksForWords words]
        simp only [fails_itemWords, JoinsNull, joined, false_and, or_false]
      · -- The items are rendered in turn, and what they are taken apart into is part of this value.
        have words := not_asksForWords apart hbound
        have ih : ∀ item ∈ items, _ := fun item _ => fails_render_iff shell item nested type
        rw [fails_render_bound apart hbound, meets_of_bound apart hbound, meets_of_bound apart hbound,
          holdsRecord_array]
        simp only [NestsArray, JoinsNull, words, joined, false_and, false_or]
        rw [exists_congr fun item => and_congr_right (ih item)]
        simp only [and_or_left, exists_or]
  | .null, _, _ | .bool _, _, _ | .int _, _, _ | .float _, _, _ | .str _, _, _ | .file _, _, _
  | .directory _, _, _ =>
      iff_of_false (by simp [render, wordOf, Except.map]) (by rintro ((h | h) | h) <;> cases h)

/-- **What has no words.**  A record in arrays is refused, and so is an array where one word is asked for.
Nothing else is, unless a null is joined: arrays of any depth, optional items, truth values, files, directories,
numbers and texts become words under every binding. -/
theorem refused_on_command_line (shell : Bool) (binding : InputBinding) (declared : Option DataType)
    (value : Value) :
    (HoldsRecord value ∨ Meets NestsArray binding declared value →
      ∃ failure, render shell binding declared value = .error failure) ∧
    (¬ Meets JoinsNull binding declared value →
      (∃ failure, render shell binding declared value = .error failure) →
        HoldsRecord value ∨ Meets NestsArray binding declared value) := by
  have hrefused := fails_render_iff shell value binding declared
  exact ⟨fun h => hrefused.mpr (.inl h), fun unjoined h => (hrefused.mp h).resolve_right unjoined⟩

/-- Rows of rows of numbers, where the rows have a binding and their items have none. -/
def cubes : DataType := .array (.array (.array .int none) none) (some .plain)

/-- A row of one row of one number. -/
def cube : Value := .array [.array [.array [.int 1]]]

lemma cube_bound : itemDeclaration (some cubes) = (some (.array (.array .int none) none), some .plain) := rfl

lemma row_asksForWords : AsksForWords .plain (some (.array (.array .int none) none)) := .inr rfl

/-- The outer rows are taken apart, and an inner one is refused. -/
theorem cube_refused :
    ¬ HoldsRecord cube ∧ ¬ Meets JoinsNull .plain (some cubes) cube ∧
      (∃ failure, render false .plain (some cubes) cube = .error failure) ∧
      Meets NestsArray .plain (some cubes) cube := by
  have hrecord : ¬ HoldsRecord cube := by simp [cube, holdsRecord_array, not_holdsRecord_int]
  have unjoined : ¬ Meets JoinsNull .plain (some cubes) cube := by
    rw [cube, meets_of_bound rfl cube_bound]
    rintro (⟨joined, -⟩ | ⟨row, mem, h⟩)
    · exact joined rfl
    · obtain rfl := List.mem_singleton.mp mem
      obtain ⟨joined, -⟩ := (meets_of_asksForWords row_asksForWords).mp h
      exact joined rfl
  have nested : Meets NestsArray .plain (some cubes) cube :=
    .inside rfl cube_bound (List.mem_singleton_self _)
      (.here ⟨row_asksForWords, _, List.mem_singleton_self _⟩)
  obtain ⟨refused, only⟩ := refused_on_command_line false .plain (some cubes) cube
  have hfails := refused (.inr nested)
  exact ⟨hrecord, unjoined, hfails, (only unjoined hfails).resolve_left hrecord⟩

/-- Rows of numbers hold no record, and are refused where their items have no binding. -/
theorem row_of_rows_refused :
    conforms (.array [.array [.int 1]]) (.array (.array .int none) none) = true ∧
      ¬ HoldsRecord (.array [.array [.int 1]]) ∧
      render false .plain (some (DataType.array (.array .int none) none).nonNull) (.array [.array [.int 1]]) =
        .error (.notImplemented .commandAssembler "cannot render array as a command line word") := by
  refine ⟨rfl, ?_, rfl⟩
  simp [holdsRecord_array, not_holdsRecord_int]

end Values

end WorkflowEngine.CommandLine
