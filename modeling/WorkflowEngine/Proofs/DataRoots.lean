import WorkflowEngine.Proofs.Normalization
import WorkflowEngine.Proofs.Paths

/-!
# Directories of shared and user data

An address stands for a path below the directory of the shared data or of a user's data.

**Below a directory.**  A path lies under a directory when its components go on from those of the directory,
and following them never leads above it (`LiesUnder`).

**Joined paths.**  A relative path adds its components to those of the directory (`components_join_relative`).

**Addresses.**  So an address stays in its directory if and only if its path is relative and never climbs out
of it, or is absolute and happens to lie there (`expansion_liesUnder_iff`).  Nothing keeps an address from
having another path (`addresses_lead_outside`).
-/

namespace WorkflowEngine

namespace Path

/-! ## Below a directory -/

/-- Whether some components, one after the other, never lead above where they start; that is so many
directories down. -/
def staysBelow : Nat → List Component → Bool
  | _, [] => true
  | depth, .normal _ :: rest => staysBelow (depth + 1) rest
  | 0, .up :: _ => false
  | depth + 1, .up :: rest => staysBelow depth rest
  | depth, .root :: rest => staysBelow depth rest
  | depth, .current :: rest => staysBelow depth rest

/-- A path goes on from a directory and never leaves it. -/
def LiesUnder (root path : String) : Prop :=
  ∃ rest, components path = components root ++ rest ∧ staysBelow 0 rest = true

lemma liesUnder_iff {root path : String} :
    LiesUnder root path ↔ components root <+: components path ∧
      staysBelow 0 ((components path).drop (components root).length) = true := by
  constructor
  · rintro ⟨rest, hrest, hstays⟩
    rw [hrest, List.drop_left]
    exact ⟨List.prefix_append _ _, hstays⟩
  · rintro ⟨⟨rest, hrest⟩, hstays⟩
    rw [← hrest, List.drop_left] at hstays
    exact ⟨rest, hrest.symm, hstays⟩

instance (root path : String) : Decidable (LiesUnder root path) := decidable_of_iff _ liesUnder_iff.symm

/-! ## Joined paths -/

/-- A relative path opens with a dot at most, which leads nowhere. -/
lemma staysBelow_components {path : String} (h : isAbsolute path = false) :
    staysBelow 0 (components path) = staysBelow 0 (named path.toList) := by
  have hslash : path.toList.head? ≠ some '/' := by
    rw [isAbsolute, beq_eq_false_iff_ne] at h
    exact h
  rw [components_eq, parts, opening, if_neg hslash]
  split_ifs
  · rfl
  · rfl

/-- **A relative path** adds its components to those of a directory. -/
lemma components_join_relative {base path : String} (hbase : base ≠ "") (h : isAbsolute path = false) :
    components (join base path) = components base ++ named path.toList := by
  have hne : base.toList ≠ [] := fun hnil => hbase (String.toList_eq_nil_iff.mp hnil)
  rw [join, h, if_neg Bool.false_ne_true, components_eq base]
  split_ifs with hslash
  · obtain ⟨front, hfront⟩ := List.getLast?_eq_some_iff.mp (hslash.resolve_left hbase)
    rw [components_eq, String.toList_append, hfront, List.append_assoc, List.singleton_append, parts_slash]
  · rw [components_eq, String.toList_append, String.toList_append, List.append_assoc]
    change parts (base.toList ++ '/' :: path.toList) = _
    rw [parts_slash, parts_trailing hne]

/-- What is seen from a directory lies under it when it does not climb out of it; an absolute path is seen
where it is. -/
lemma liesUnder_join_iff (root path : String) :
    LiesUnder root (join root path) ↔
      if isAbsolute path then LiesUnder root path else staysBelow 0 (components path) = true := by
  split_ifs with habsolute
  · rw [join_of_isAbsolute habsolute]
  · have hrelative : isAbsolute path = false := by simpa using habsolute
    have hjoin : ∃ rest, components (join root path) = components root ++ rest ∧
        staysBelow 0 rest = staysBelow 0 (components path) := by
      by_cases hroot : root = ""
      · refine ⟨components path, ?_, rfl⟩
        rw [hroot, join, hrelative, if_neg Bool.false_ne_true, if_pos (.inl rfl), String.empty_append]
        rfl
      · exact ⟨_, components_join_relative hroot hrelative, (staysBelow_components hrelative).symm⟩
    obtain ⟨rest, hcomponents, hstays⟩ := hjoin
    rw [← hstays, LiesUnder, hcomponents]
    constructor
    · rintro ⟨own, hown, hbelow⟩
      rwa [List.append_cancel_left hown]
    · exact fun hbelow => ⟨rest, rfl, hbelow⟩

end Path

/-! ## Addresses -/

namespace Binding

open WorkflowEngine.Path (LiesUnder)

/-- **An address stays in its directory** if and only if its path does not climb out of it, or is an absolute
one in it. -/
theorem expansion_liesUnder_iff {config : Configuration} {opening root : String}
    (h : StandsFor config opening root) (path : String) :
    LiesUnder root (expandLocation config (opening ++ path)) ↔
      if Path.isAbsolute path then LiesUnder root path
      else Path.staysBelow 0 (Path.components path) = true := by
  rw [expandLocation_of_standsFor h, Path.liesUnder_join_iff]

/-- A path that goes down and up again stays in the directory. -/
theorem winding_address_liesUnder :
    StandsFor .standard "USER/" "/engine-workspace" ∧
      LiesUnder "/engine-workspace" (expandLocation .standard "USER/runs/../in.txt") := by
  have hopening : StandsFor .standard "USER/" "/engine-workspace" := .user
  refine ⟨hopening, (expansion_liesUnder_iff hopening "runs/../in.txt").mpr ?_⟩
  decide

/-- An address with an absolute path, and one that climbs, lead outside of the directories. -/
theorem addresses_lead_outside :
    Path.isAbsolute Configuration.standard.commonsRoot = true ∧
      Path.isAbsolute Configuration.standard.userRoot = true ∧
      ¬ LiesUnder Configuration.standard.commonsRoot (expandLocation .standard "COMMONS//etc/passwd") ∧
      ¬ LiesUnder Configuration.standard.userRoot (expandLocation .standard "USER/../etc/passwd") := by
  decide +kernel

end Binding

end WorkflowEngine
