import Mathlib.Data.List.Forall2
import Mathlib.Data.Option.Basic
import Mathlib.Logic.Relation
import Mathlib.Tactic.Common
import WorkflowEngine.Proofs.LocalNames
import WorkflowEngine.Proofs.Maps

/-!
# Spellings of documents

The same document can be written in several ways: the entries of a section as a list or as a map, an id by
itself or below the id of what it belongs to.  This says which values are other spellings of one, from the
inside out; a change may be made anywhere, or nowhere.

**Names.**  `Absolute`: the form of an id that starts with the scope.  `TextVariant` and `TextsVariant`: a name,
and a name or a list of names, where some are written in another form.

**Members.**  `MembersVariant`: the members of an object, some of which are written in another form.  Which ones
may be is a table, `Changes`.

**Sections.**  `SectionVariant`: a section that stays a list or a map, or a list that becomes a map.  Its
`Spelling` tells what holds the name of an entry and what may change about its body.

**Types, processes, documents.**  `TypeVariant`, `ProcessVariant` and `DocumentVariant`, each with the table of
its members.
-/

namespace WorkflowEngine.Document

open Relation (ReflGen)

/-! ## Names -/

/-- The absolute form of an id, which lies below a scope. -/
def Absolute (scope i j : String) : Prop := '#' ∉ i.toList ∧ j = scope ++ "/" ++ i

/-- A text that holds another name. -/
inductive TextVariant (names : String → String → Prop) : Json → Json → Prop
  | text {s t : String} (h : names s t) : TextVariant names (.str s) (.str t)

/-- A text, or a list with texts, that holds other names. -/
inductive TextsVariant (names : String → String → Prop) : Json → Json → Prop
  | one {s t : String} (h : names s t) : TextsVariant names (.str s) (.str t)
  | list {as bs : List Json} (h : List.Forall₂ (ReflGen (TextVariant names)) as bs) :
      TextsVariant names (.arr as) (.arr bs)

/-! ## Members -/

/-- How the members of an object may change, by key. -/
abbrev Changes := OrderedMap (Json → Json → Prop)

/-- The values of a member before and after a change. -/
def Changes.At (changes : Changes) (key : String) : Json → Json → Prop :=
  ReflGen fun a b => ∃ R, changes.find? key = some R ∧ R a b

/-- The members of an object, some of which have changed. -/
def MembersVariant (changes : Changes) (ms ns : List (String × Json)) : Prop :=
  List.Forall₂ (fun p q => q.1 = p.1 ∧ changes.At p.1 p.2 q.2) ms ns

/-! ## Sections -/

/-- How a section with entries may be written. -/
structure Spelling where
  /-- The member that holds the id of an entry of a list. -/
  keyField : String
  /-- The member that the body of an entry of a map stands for when it is no object. -/
  shorthand : String
  /-- The other forms of an id. -/
  names : String → String → Prop
  /-- How the members of the body of an entry may change. -/
  changes : String → Changes

/-- How the members of an entry may change, its id among them. -/
def Spelling.entry (σ : Spelling) (id : String) : Changes :=
  (σ.keyField, TextVariant σ.names) :: σ.changes id

/-- An entry of a list in another spelling. -/
inductive ItemVariant (σ : Spelling) : Json → Json → Prop
  | bare {i j : String} (h : σ.names i j) : ItemVariant σ (.str i) (.str j)
  | object {id : String} {ms ns : List (String × Json)}
      (hid : OrderedMap.find? ms σ.keyField = some (.str id)) (h : MembersVariant (σ.entry id) ms ns) :
      ItemVariant σ (.obj ms) (.obj ns)

/-- The body of an entry of a map in another spelling. -/
inductive BodyVariant (σ : Spelling) (id : String) : Json → Json → Prop
  | object {ms ns : List (String × Json)} (h : MembersVariant (σ.entry id) ms ns) :
      BodyVariant σ id (.obj ms) (.obj ns)
  | short {a b : Json} (ha : ∀ ms, a ≠ .obj ms) (hb : ∀ ms, b ≠ .obj ms)
      (h : (σ.changes id).At σ.shorthand a b) : BodyVariant σ id a b

/-- An entry of a list and one of a map: the map may hold the id in the body as well, or leave it out. -/
inductive KeyedVariant (σ : Spelling) : Json → String × Json → Prop
  | kept {id j : String} {ms ns : List (String × Json)}
      (hid : OrderedMap.find? ms σ.keyField = some (.str id)) (hname : ReflGen σ.names id j)
      (h : MembersVariant (σ.entry id) ms ns) : KeyedVariant σ (.obj ms) (j, .obj ns)
  | dropped {id j : String} {ms ns : List (String × Json)}
      (hid : OrderedMap.find? ms σ.keyField = some (.str id)) (hname : ReflGen σ.names id j)
      (h : MembersVariant (σ.entry id) (OrderedMap.erase ms σ.keyField) ns) :
      KeyedVariant σ (.obj ms) (j, .obj ns)

/-- A section in another spelling. -/
inductive SectionVariant (σ : Spelling) : Json → Json → Prop
  | list {as bs : List Json} (h : List.Forall₂ (ReflGen (ItemVariant σ)) as bs) :
      SectionVariant σ (.arr as) (.arr bs)
  | map {ms ns : List (String × Json)}
      (h : List.Forall₂
        (fun p q => ReflGen σ.names p.1 q.1 ∧ ReflGen (BodyVariant σ p.1) p.2 q.2) ms ns) :
      SectionVariant σ (.obj ms) (.obj ns)
  | keyed {as : List Json} {ns : List (String × Json)} (h : List.Forall₂ (KeyedVariant σ) as ns) :
      SectionVariant σ (.arr as) (.obj ns)

/-- Requirements and hints, which are known by their class. -/
def requirementSpelling : Spelling := ⟨"class", "type", fun _ _ => False, fun _ => []⟩

/-! ## Types -/

/-- The fields of a record. -/
def fieldSpelling (inner : Json → Json → Prop) : Spelling :=
  ⟨"name", "type", fun _ _ => False, fun _ => [("type", inner)]⟩

/-- What may change about a schema. -/
def schemaChanges (inner : Json → Json → Prop) : Changes :=
  [("items", inner), ("fields", SectionVariant (fieldSpelling inner))]

/-- A type in another spelling, given those of the types inside it. -/
inductive TypeChange (inner : Json → Json → Prop) : Json → Json → Prop
  | union {as bs : List Json} (h : List.Forall₂ (ReflGen inner) as bs) :
      TypeChange inner (.arr as) (.arr bs)
  | schema {ms ns : List (String × Json)} (h : MembersVariant (schemaChanges inner) ms ns) :
      TypeChange inner (.obj ms) (.obj ns)

/-- A type in another spelling, where changes are made at most so many levels deep. -/
def TypeVariantUpTo : Nat → Json → Json → Prop
  | 0 => fun _ _ => False
  | depth + 1 => TypeChange (TypeVariantUpTo depth)

/-- A type in another spelling. -/
def TypeVariant (a b : Json) : Prop := ∃ depth, TypeVariantUpTo depth a b

/-! ## Processes -/

/-- The inputs of a process with an id. -/
def inputSpelling (process : String) : Spelling :=
  ⟨"id", "type", Absolute process, fun _ => [("type", TypeVariant)]⟩

/-- The outputs of a process with an id: their sources lie in the process. -/
def outputSpelling (process : String) : Spelling :=
  ⟨"id", "type", Absolute process,
    fun _ => [("type", TypeVariant), ("outputSource", TextsVariant (Absolute process))]⟩

/-- The inputs of a step with an id: their sources lie in the workflow, not in the step. -/
def stepInputSpelling (workflow step : String) : Spelling :=
  ⟨"id", "source", Absolute step, fun _ => [("source", TextsVariant (Absolute workflow))]⟩

/-- The outputs of a step with an id. -/
def stepOutputSpelling (step : String) : Spelling := ⟨"id", "type", Absolute step, fun _ => []⟩

/-- Processes in another spelling, for an id that they fall back on. -/
abbrev ProcessSpellings := Option String → Json → Json → Prop

/-- What may change about a step with an id. -/
def stepChanges (inner : ProcessSpellings) (workflow step : String) : Changes :=
  [("run", inner (some (step ++ "/run"))),
    ("in", SectionVariant (stepInputSpelling workflow step)),
    ("out", SectionVariant (stepOutputSpelling step)),
    ("scatter", TextsVariant fun s t => Absolute step s t ∨ Absolute workflow s t),
    ("requirements", SectionVariant requirementSpelling),
    ("hints", SectionVariant requirementSpelling)]

/-- The steps of a workflow with an id. -/
def stepSpelling (inner : ProcessSpellings) (workflow : String) : Spelling :=
  ⟨"id", "type", Absolute workflow, fun raw => stepChanges inner workflow (Ident.qualify workflow raw)⟩

/-- What may change about a process with an id. -/
def processChanges (inner : ProcessSpellings) (process : String) : Changes :=
  [("inputs", SectionVariant (inputSpelling process)),
    ("outputs", SectionVariant (outputSpelling process)),
    ("steps", SectionVariant (stepSpelling inner process)),
    ("requirements", SectionVariant requirementSpelling),
    ("hints", SectionVariant requirementSpelling)]

/-- The id of a process, if it has one. -/
def scopeOf (json : Json) (fallback : Option String) : String :=
  (processId json fallback).toOption.getD ""

/-- A process in another spelling, given those of the processes inside it. -/
inductive ProcessChange (inner : ProcessSpellings) (fallback : Option String) : Json → Json → Prop
  | object {ms ns : List (String × Json)}
      (h : MembersVariant (processChanges inner (scopeOf (.obj ms) fallback)) ms ns) :
      ProcessChange inner fallback (.obj ms) (.obj ns)

/-- A process in another spelling, where changes are made in processes at most so many levels deep. -/
def ProcessVariant : Nat → ProcessSpellings
  | 0 => fun _ _ _ => False
  | depth + 1 => ProcessChange (ProcessVariant depth)

/-- What may change about a document. -/
def documentChanges (depth : Nat) : Changes :=
  [("$graph", fun a b => ∃ as bs, a = .arr as ∧ b = .arr bs ∧
    List.Forall₂ (ReflGen (ProcessVariant depth none)) as bs)]

/-- **A document in another spelling.** -/
def DocumentVariant (a b : Json) : Prop :=
  ∃ depth ms ns, a = .obj ms ∧ b = .obj ns ∧ MembersVariant (documentChanges depth) ms ns

/-! ## Reading members -/

/-- The members that are read from two objects, but for one. -/
def FieldsVariant (skipped : String) (changes : Changes) (a b : Json) : Prop :=
  ∀ key, key ≠ skipped → Option.Rel (changes.At key) (a.field? key) (b.field? key)

section Fields

variable {changes : Changes} {skipped key : String}

lemma Changes.At.of_find {R : Json → Json → Prop} {a b : Json} (hfind : changes.find? key = some R)
    (h : changes.At key a b) : ReflGen R a b := by
  cases h with
  | refl => exact .refl
  | single h =>
      obtain ⟨S, hS, hab⟩ := h
      obtain rfl : R = S := Option.some.inj (hfind.symm.trans hS)
      exact .single hab

lemma Changes.At.eq_of_find {a b : Json} (hfind : changes.find? key = none) (h : changes.At key a b) :
    b = a := by
  cases h with
  | refl => rfl
  | single h =>
      obtain ⟨S, hS, -⟩ := h
      rw [hfind] at hS
      cases hS

lemma Changes.At.changed {changes : Changes} {key : String} {R : Json → Json → Prop} {a b : Json}
    (hfind : changes.find? key = some R) (h : R a b) : changes.At key a b :=
  .single ⟨R, hfind, h⟩

lemma MembersVariant.refl (changes : Changes) (ms : List (String × Json)) : MembersVariant changes ms ms :=
  List.forall₂_same.mpr fun _ _ => ⟨rfl, .refl⟩

/-- The members of two objects are looked up alike. -/
lemma MembersVariant.find? {ms ns : List (String × Json)} (h : MembersVariant changes ms ns) (key : String) :
    Option.Rel (changes.At key) (OrderedMap.find? ms key) (OrderedMap.find? ns key) := by
  induction h with
  | nil => exact .none
  | @cons p q ms ns hpq _ ih =>
      obtain ⟨k, v⟩ := p
      obtain ⟨k', w⟩ := q
      obtain ⟨rfl, hvw⟩ := hpq
      rw [OrderedMap.find?_cons, OrderedMap.find?_cons]
      split_ifs with hkey
      · exact .some (hkey ▸ hvw)
      · exact ih

/-- What is found is the same where nothing may change. -/
lemma eq_of_rel {x y : Option Json} (hfind : changes.find? key = none)
    (h : Option.Rel (changes.At key) x y) : y = x := by
  cases h with
  | none => rfl
  | some h => rw [h.eq_of_find hfind]

lemma changed_of_rel {R : Json → Json → Prop} {x y : Option Json} (hfind : changes.find? key = some R)
    (h : Option.Rel (changes.At key) x y) : Option.Rel (ReflGen R) x y := by
  cases h with
  | none => exact .none
  | some h => exact .some (h.of_find hfind)

lemma MembersVariant.fields {ms ns : List (String × Json)} (h : MembersVariant changes ms ns) :
    FieldsVariant skipped changes (.obj ms) (.obj ns) :=
  fun key _ => h.find? key

namespace FieldsVariant

variable {a b : Json}

lemma refl (skipped : String) (changes : Changes) (a : Json) : FieldsVariant skipped changes a a := by
  intro key _
  cases a.field? key with
  | none => exact .none
  | some v => exact .some .refl

lemma eq (h : FieldsVariant skipped changes a b) (key : String) (hkey : key ≠ skipped)
    (hfind : changes.find? key = none) : b.field? key = a.field? key :=
  eq_of_rel hfind (h key hkey)

lemma changed (h : FieldsVariant skipped changes a b) (key : String) (hkey : key ≠ skipped)
    {R : Json → Json → Prop} (hfind : changes.find? key = some R) :
    Option.Rel (ReflGen R) (a.field? key) (b.field? key) :=
  changed_of_rel hfind (h key hkey)

end FieldsVariant

end Fields

/-! ## Reading sections -/

section Entries

variable {σ : Spelling} {id : String} {ms ns : List (String × Json)}

/-- An entry that is read from a section, and one that is read from another spelling of it. -/
def EntryVariant (σ : Spelling) (p q : String × Json) : Prop :=
  ReflGen σ.names p.1 q.1 ∧ FieldsVariant σ.keyField (σ.changes p.1) p.2 q.2

lemma EntryVariant.refl (σ : Spelling) (p : String × Json) : EntryVariant σ p p :=
  ⟨.refl, .refl _ _ _⟩

/-- The members of an entry but for its id. -/
lemma MembersVariant.entry_fields (h : MembersVariant (σ.entry id) ms ns) :
    FieldsVariant σ.keyField (σ.changes id) (.obj ms) (.obj ns) := by
  intro key hkey
  have hfind : (σ.entry id).find? key = (σ.changes id).find? key := by
    rw [Spelling.entry, OrderedMap.find?_cons, if_neg (Ne.symm hkey)]
  have hvariant := h.find? key
  rwa [Changes.At, hfind] at hvariant

/-- The id of an entry. -/
lemma MembersVariant.entry_id (h : MembersVariant (σ.entry id) ms ns)
    (hid : OrderedMap.find? ms σ.keyField = some (.str id)) :
    ∃ j, OrderedMap.find? ns σ.keyField = some (.str j) ∧ ReflGen σ.names id j := by
  have hfind : (σ.entry id).find? σ.keyField = some (TextVariant σ.names) := by
    rw [Spelling.entry, OrderedMap.find?_cons, if_pos rfl]
  have hkey := changed_of_rel hfind (h.find? σ.keyField)
  rw [hid] at hkey
  generalize OrderedMap.find? ns σ.keyField = y at hkey
  cases hkey with
  | some h =>
      cases h with
      | refl => exact ⟨id, rfl, .refl⟩
      | single h =>
          cases h with
          | text h => exact ⟨_, rfl, .single h⟩

/-- Leaving the id out of an entry leaves its other members: nothing is read from it but these. -/
lemma FieldsVariant.of_erase {skipped : String} {changes : Changes} {b : Json}
    (h : FieldsVariant skipped changes (.obj (OrderedMap.erase ms skipped)) b) :
    FieldsVariant skipped changes (.obj ms) b := by
  intro key hkey
  have hfield := h key hkey
  have herase : Json.field? (.obj (OrderedMap.erase ms skipped)) key = Json.field? (.obj ms) key :=
    OrderedMap.find?_erase_of_ne hkey
  rwa [herase] at hfield

lemma KeyedVariant.entry {item : Json} {q : String × Json} (h : KeyedVariant σ item q) :
    ∃ id, listEntry σ.keyField item = .ok (id, item) ∧
      EntryVariant σ (id, item) (q.1, mapBody σ.shorthand q.2) := by
  cases h with
  | @kept id j ms ns hid hname h =>
      refine ⟨id, ?_, hname, h.entry_fields⟩
      rw [listEntry, Json.field?, Json.members, hid]
  | @dropped id j ms ns hid hname h =>
      refine ⟨id, ?_, hname, .of_erase h.entry_fields⟩
      rw [listEntry, Json.field?, Json.members, hid]

lemma mapBody_of_ne {shorthand : String} {a : Json} (h : ∀ ms, a ≠ .obj ms) :
    mapBody shorthand a = .obj [(shorthand, a)] := by
  unfold mapBody
  split
  · exact absurd rfl (h _)
  · rfl

lemma fields_mapBody {a b : Json} (h : ReflGen (BodyVariant σ id) a b) :
    FieldsVariant σ.keyField (σ.changes id) (mapBody σ.shorthand a) (mapBody σ.shorthand b) := by
  cases h with
  | refl => exact .refl _ _ _
  | single h =>
      cases h with
      | object h => exact h.entry_fields
      | short ha hb h =>
          rw [mapBody_of_ne ha, mapBody_of_ne hb]
          exact MembersVariant.fields (.cons ⟨rfl, h⟩ .nil)

end Entries

end WorkflowEngine.Document
