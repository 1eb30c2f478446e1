import WorkflowEngine.Binding.Conformance
import WorkflowEngine.Proofs.Maps

/-!
# Laws of types

When values fit types, apart from what the values are used for.

**Null.**  Null fits the optional types, and to every other value null in a type makes no difference:
`conforms_null`, `conforms_nonNull`.

**Files.**  A type never looks into a file.  So a value fits it as before when its files are exchanged for
others (`conforms_mapFiles`), and one file fits it when any does (`conforms_file`).
-/

namespace WorkflowEngine.Binding

open Document (DataType InputBinding)

/-! ## Null -/

mutual

/-- Null fits exactly the types that allow it. -/
lemma conforms_null : ∀ t : DataType, conforms .null t = t.isOptional
  | .union members => by rw [conforms, DataType.isOptional, conformsToAny_null members]
  | .null | .any | .boolean | .int | .long | .float | .double | .string | .file | .directory => rfl
  | .stdout | .stderr | .array _ _ | .record _ | .enum _ => rfl

lemma conformsToAny_null : ∀ ts : List DataType, conformsToAny .null ts = DataType.isOptionalAny ts
  | [] => rfl
  | t :: rest => by
      rw [conformsToAny, DataType.isOptionalAny, conforms_null t, conformsToAny_null rest]

end

lemma eq_null_of_isNull {t : DataType} (h : t.isNull = true) : t = .null := by
  cases t <;> first | rfl | cases h

section NonNull

variable {v : Value}

lemma conforms_of_isNull (hv : v.isNull = false) {t : DataType} (h : t.isNull = true) :
    conforms v t = false := by
  rw [eq_null_of_isNull h, conforms, hv]

lemma conformsToAny_of_isNull (hv : v.isNull = false) :
    ∀ {ts : List DataType}, (∀ t ∈ ts, t.isNull = true) → conformsToAny v ts = false
  | [], _ => rfl
  | t :: rest, h => by
      rw [conformsToAny, conforms_of_isNull hv (h t List.mem_cons_self),
        conformsToAny_of_isNull hv fun s hs => h s (List.mem_cons_of_mem t hs), Bool.or_false]

mutual

/-- A value that is not null fits a type when it fits the type without null. -/
lemma conforms_nonNull (hv : v.isNull = false) : ∀ t : DataType, conforms v t.nonNull = conforms v t
  | .union members => by
      rw [DataType.nonNull]
      split_ifs with h
      · rw [conforms]
        exact conforms_nonNullMember hv members h
      · rfl
  | .null | .any | .boolean | .int | .long | .float | .double | .string | .file | .directory => rfl
  | .stdout | .stderr | .array _ _ | .record _ | .enum _ => rfl

lemma conforms_nonNullMember (hv : v.isNull = false) : ∀ ts : List DataType,
    (ts.filter fun t => !t.isNull).length = 1 →
    conforms v (DataType.nonNullMember ts) = conformsToAny v ts
  | [], h => by simp at h
  | t :: rest, h => by
      rw [DataType.nonNullMember, conformsToAny]
      split_ifs with ht
      · rw [conforms_of_isNull hv ht, Bool.false_or]
        exact conforms_nonNullMember hv rest (by simpa [ht] using h)
      · have hrest : ∀ s ∈ rest, s.isNull = true := by simpa [ht] using h
        rw [conforms_nonNull hv t, conformsToAny_of_isNull hv hrest, Bool.or_false]

end

end NonNull

/-! ## Files -/

section Files

variable (f : FileValue → FileValue)

lemma mapFilesItems_eq (values : List Value) :
    Value.mapFilesItems f values = values.map (Value.mapFiles f) := by
  induction values with
  | nil => rfl
  | cons v rest ih => rw [Value.mapFilesItems, ih, List.map_cons]

lemma mapFilesFields_eq (values : Values) :
    Value.mapFilesFields f values = values.map fun p => (p.1, p.2.mapFiles f) := by
  induction values with
  | nil => rfl
  | cons p rest ih => rw [Value.mapFilesFields, ih, List.map_cons]

lemma getD_find?_mapFilesFields (values : Values) (name : String) :
    (OrderedMap.find? (Value.mapFilesFields f values) name).getD .null =
      ((values.find? name).getD .null).mapFiles f := by
  rw [mapFilesFields_eq, OrderedMap.find?_mapValues (fun p : String × Value => p.2.mapFiles f)]
  cases values.find? name <;> rfl

mutual

/-- Which files a value holds plays no part in whether it fits a type. -/
lemma conforms_mapFiles : ∀ (t : DataType) (v : Value), conforms (v.mapFiles f) t = conforms v t
  | .union members, v => by rw [conforms, conforms, conformsToAny_mapFiles members v]
  | .record fields, v => by
      cases v with
      | record values =>
          rw [Value.mapFiles, conforms, conforms]
          exact fieldsConform_mapFiles fields values
      | _ => rfl
  | .array items _, v => by
      cases v with
      | array values =>
          rw [Value.mapFiles, mapFilesItems_eq, conforms, conforms, List.all_map]
          congr 1
          exact funext fun v => conforms_mapFiles items v
      | _ => rfl
  | .any, _ => rfl
  | .null, v | .boolean, v | .int, v | .long, v | .float, v | .double, v | .string, v => by cases v <;> rfl
  | .file, v | .directory, v | .stdout, v | .stderr, v | .enum _, v => by cases v <;> rfl

lemma conformsToAny_mapFiles : ∀ (ts : List DataType) (v : Value),
    conformsToAny (v.mapFiles f) ts = conformsToAny v ts
  | [], _ => rfl
  | t :: rest, v => by
      rw [conformsToAny, conformsToAny, conforms_mapFiles t v, conformsToAny_mapFiles rest v]

lemma fieldsConform_mapFiles : ∀ (fields : List (String × DataType × Option InputBinding))
    (values : Values), fieldsConform (Value.mapFilesFields f values) fields = fieldsConform values fields
  | [], _ => rfl
  | (name, type, _) :: rest, values => by
      rw [fieldsConform, fieldsConform, getD_find?_mapFilesFields, conforms_mapFiles type,
        fieldsConform_mapFiles rest values]

end

end Files

/-- Types do not tell files apart. -/
lemma conforms_file (f g : FileValue) (t : DataType) : conforms (.file f) t = conforms (.file g) t :=
  conforms_mapFiles (fun _ => f) t (.file g)

end WorkflowEngine.Binding
