import Mathlib.Data.List.Basic
import Mathlib.Tactic.Common
import WorkflowEngine.Expression

/-!
# Laws of placeholders

**Plain texts.**  Without a dollar sign a text holds no expression: it is its own value, in every
context (`evaluateJson_of_plain`).
-/

namespace WorkflowEngine

namespace Placeholder

lemma mem_of_mem_trimList {p : Char → Bool} {cs : List Char} {c : Char}
    (h : c ∈ Text.trimList p cs) : c ∈ cs := by
  have hend : c ∈ (cs.dropWhile p).reverse :=
    (List.dropWhile_suffix p).subset (List.mem_reverse.mp h)
  exact (List.dropWhile_suffix p).subset (List.mem_reverse.mp hend)

lemma scanFrom_of_plain : ∀ {cs literal : List Char}, '$' ∉ cs →
    scanFrom literal cs = some (flush (cs.reverse ++ literal) [])
  | [], literal, _ => by rw [scanFrom, List.reverse_nil, List.nil_append]
  | c :: rest, literal, h => by
      have hrest : '$' ∉ rest := fun hm => h (List.mem_cons_of_mem c hm)
      have hfirst : c ≠ '$' := fun hc => h (hc ▸ List.mem_cons_self)
      rw [scanFrom, scanFrom_of_plain hrest, List.reverse_cons, List.append_assoc]
      · rfl
      · rintro rest' - rfl
        simp at hrest
      · intro rest' hc
        exact absurd hc hfirst

lemma functionBody?_of_plain {text : String} (h : '$' ∉ text.toList) : functionBody? text = none := by
  unfold functionBody?
  split
  · next rest htrimmed =>
      exact absurd (mem_of_mem_trimList (htrimmed ▸ List.mem_cons_self)) h
  · rfl

lemma singlePlaceholder?_of_plain {text : String} (h : '$' ∉ text.toList) :
    singlePlaceholder? text = none := by
  unfold singlePlaceholder?
  dsimp only
  split_ifs with hprefix
  · obtain ⟨rest, hrest⟩ := List.isPrefixOf_iff_prefix.mp hprefix
    have hmem : '$' ∈ Text.trimList Text.isWhiteSpace text.toList := by
      rw [← hrest]
      exact List.mem_cons_self
    exact absurd (mem_of_mem_trimList hmem) h
  · rfl

end Placeholder

/-- **A text without a dollar sign is its own value**, as JSON, as a value and as a text. -/
theorem evaluateJson_of_plain {text : String} (h : '$' ∉ text.toList) (context : ExprContext) :
    evaluateJson text context = .ok (.str text) := by
  have hscan : Placeholder.scan text = some (Placeholder.flush text.toList.reverse []) := by
    rw [Placeholder.scan, Placeholder.scanFrom_of_plain h, List.append_nil]
  rw [evaluateJson, Placeholder.functionBody?_of_plain h, Placeholder.singlePlaceholder?_of_plain h,
    hscan]
  cases hempty : text.toList with
  | nil =>
      obtain rfl : text = "" := String.toList_eq_nil_iff.mp hempty
      rfl
  | cons c rest =>
      have hflush : Placeholder.flush (c :: rest).reverse [] = [.text text] := by
        rw [Placeholder.flush, if_neg (by simp), List.reverse_reverse, ← hempty, String.ofList_toList]
      rw [hflush]
      simp [partText, String.join, bind, Except.bind, pure, Except.pure]

lemma evaluate_of_plain {text : String} (h : '$' ∉ text.toList) (context : ExprContext) :
    evaluate evaluateJson text context = .ok (.str text) := by
  rw [evaluate, evaluateJson_of_plain h]
  rfl

lemma evaluateString_of_plain {text : String} (h : '$' ∉ text.toList) (context : ExprContext) :
    evaluateString evaluateJson text context = .ok text := by
  rw [evaluateString, evaluateJson_of_plain h]
  rfl

end WorkflowEngine
