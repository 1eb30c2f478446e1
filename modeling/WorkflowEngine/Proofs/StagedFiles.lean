import Mathlib.Tactic.Common
import WorkflowEngine.Proofs.DataRoots
import WorkflowEngine.Tool.Staging

/-!
# Files put in place

Before a tool runs, what its requirement lists is put into its working directory.  Nothing of it comes to stand
elsewhere, whatever the expressions of the listing give and whatever its files are called.

**Names.**  A name is refused exactly if it is empty, absolute or goes back (`staysInside_iff`).  From a directory any
other name goes on into it (`goesInto_join`).

**Work.**  `FileWork.Acts`: some work changes the files as an action does, and besides only records events.  This goes
through sequences (`Acts.bind`) and lists (`Acts.append`).

**Demands.**  A listing is read as one list of `Demand`s, a name with a content each, in which some places are taken by
a failure.  A content is either written or copied (`Content.change`).  To put a listing in place is to meet its demands
one after the other (`acts_stageAll`).

**Refusal.**  Every change goes into the working directory (`goesInto_target`), and a demand whose name leads out ends
the work where it stands (`forM_of_leadsOut`).  Both together are `staging_stays_inside`.
-/

namespace WorkflowEngine

namespace Path

/-! ## Names -/

/-- A path goes on from a directory and never back. -/
def GoesInto (root path : String) : Prop :=
  components root <+: components path ∧ .up ∉ (components path).drop (components root).length

/-- A name that is empty, absolute or goes back somewhere. -/
def LeadsOut (name : String) : Prop := name = "" ∨ isAbsolute name = true ∨ .up ∈ components name

lemma componentOf_ne_root (piece : String) : componentOf piece ≠ some .root := by
  rw [componentOf]
  split_ifs <;> simp

lemma root_mem_components {path : String} : .root ∈ components path ↔ isAbsolute path = true := by
  have hnamed : .root ∉ named path.toList := by
    rw [named, List.mem_filterMap]
    rintro ⟨piece, -, hpiece⟩
    exact componentOf_ne_root _ hpiece
  rw [components_eq, parts, List.mem_append, or_iff_left hnamed, opening, isAbsolute, beq_iff_eq]
  split_ifs with hslash <;> simp [hslash]

end Path

namespace Tool

/-- A name is refused exactly if it leads out. -/
lemma staysInside_iff {name : String} : staysInside name = true ↔ ¬ Path.LeadsOut name := by
  rw [staysInside, Path.LeadsOut, ← Path.root_mem_components, Bool.and_eq_true, decide_eq_true_iff, List.all_eq_true,
    not_or, not_or]
  refine and_congr_right fun _ => ⟨fun hall => ⟨fun hroot => ?_, fun hup => ?_⟩, ?_⟩
  · exact Bool.false_ne_true (hall _ hroot)
  · exact Bool.false_ne_true (hall _ hup)
  · rintro ⟨hroot, hup⟩ c hc
    cases c with
    | root => exact absurd hc hroot
    | current => rfl
    | up => exact absurd hc hup
    | normal => rfl

/-- Whatever does not lead out goes on into the directory that it is seen from. -/
lemma goesInto_join {root name : String} (h : ¬ Path.LeadsOut name) : Path.GoesInto root (Path.join root name) := by
  rw [Path.LeadsOut, not_or, not_or] at h
  obtain ⟨-, habsolute, hup⟩ := h
  have hrelative : Path.isAbsolute name = false := by simpa using habsolute
  by_cases hroot : root = ""
  · subst hroot
    have hjoin : Path.join "" name = name := by simp [Path.join]
    rw [hjoin]
    exact ⟨List.nil_prefix, hup⟩
  · rw [Path.GoesInto, Path.components_join_relative hroot hrelative, List.drop_left]
    refine ⟨List.prefix_append _ _, fun hnamed => hup ?_⟩
    rw [Path.components_eq, Path.parts]
    exact List.mem_append_right _ hnamed

/-! ## Work -/

namespace FileWork

variable {α β : Type} {work : FileWork α} {action : FileAction α}

/-- Some work changes the files as an action does and has its outcome; besides it only records events. -/
def Acts (work : FileWork α) (action : FileAction α) : Prop :=
  ∀ files events, ∃ more, work (files, events) = ((action files).1, (action files).2, events ++ more)

lemma acts_act (action : FileAction α) : Acts (act action) action :=
  fun _ events => ⟨[], by rw [List.append_nil]; rfl⟩

lemma acts_pure (a : α) : Acts (pure a) (pure a) := acts_act (pure a)

lemma acts_throw (failure : Failure) : Acts (throw failure : FileWork α) (throw failure) := acts_act (throw failure)

lemma acts_lift (outcome : Outcome α) : Acts (liftM outcome) (liftM outcome) := acts_act (liftM outcome)

lemma acts_record (level : Level) (message : String) : Acts (record level message) (pure ()) :=
  fun _ _ => ⟨[⟨level, message⟩], rfl⟩

lemma action_bind (action : FileAction α) (following : α → FileAction β) (files : FileTree) :
    (action >>= following) files = ExceptT.bindCont following (action files).1 (action files).2 := rfl

/-- Work after work is action after action. -/
lemma Acts.bind {next : α → FileWork β} {following : α → FileAction β} (h : Acts work action)
    (hnext : ∀ a, Acts (next a) (following a)) : Acts (work >>= next) (action >>= following) := by
  intro files events
  obtain ⟨more, hwork⟩ := h files events
  have hbind : (work >>= next) (files, events) =
      ExceptT.bindCont next (work (files, events)).1 (work (files, events)).2 := rfl
  rw [hbind, action_bind, hwork]
  rcases action files with ⟨failure | a, files'⟩
  · exact ⟨more, rfl⟩
  · obtain ⟨rest, hrest⟩ := hnext a files' (events ++ more)
    exact ⟨more ++ rest, by rw [← List.append_assoc]; exact hrest⟩

-- That a file was put in place is recorded after it was, that a text will be before.
lemma Acts.thenRecord {work : FileWork Unit} {action : FileAction Unit} (h : Acts work action) (level : Level)
    (message : String) : Acts (do work; record level message) action := by
  rw [← bind_pure action]
  exact h.bind fun _ => acts_record level message

lemma Acts.afterRecord (h : Acts work action) (level : Level) (message : String) :
    Acts (do record level message; work) action := by
  rw [← pure_bind () fun _ => action]
  exact (acts_record level message).bind fun _ => h

lemma forM_single (f : α → FileAction Unit) (a : α) : [a].forM f = f a := bind_pure (f a)

lemma Acts.single {work : FileWork Unit} {f : α → FileAction Unit} {a : α} (h : Acts work (f a)) :
    Acts work ([a].forM f) := by
  rwa [forM_single]

lemma Acts.append {work next : FileWork Unit} {f : α → FileAction Unit} {front back : List α}
    (h : Acts work (front.forM f)) (hnext : Acts next (back.forM f)) :
    Acts (do work; next) ((front ++ back).forM f) := by
  have happend : (front ++ back).forM f = (do front.forM f; back.forM f) := List.forM_append
  rw [happend]
  exact h.bind fun _ => hnext

end FileWork

/-! ## Demands -/

/-- A change that puts something in place. -/
inductive Change where
  | write (target : String) (bytes : Text.Bytes)
  | copy (source target : String)

namespace Change

/-- The path that something comes to stand at. -/
def target : Change → String
  | write target _ => target
  | copy _ target => target

/-- The change as an action. -/
def action : Change → FileAction Unit
  | write target bytes => Files.writeFile target bytes
  | copy source target => do let _ ← Files.copyFile source target

end Change

/-- What is put in place. -/
inductive Content where
  | text (text : String)
  | file (file : FileValue)

/-- The change that puts a content at a path: texts and files that only have contents are written, all others
copied. -/
def Content.change : Content → String → Change
  | .text t, target => .write target (Text.encode t)
  | .file f, target =>
    match f.contents with
    | some contents => if f.path = "" then .write target (Text.encode contents) else .copy f.path target
    | none => .copy f.path target

lemma Content.target_change (content : Content) (target : String) : (content.change target).target = target := by
  cases content with
  | text t => rfl
  | file f =>
      rw [Content.change]
      split
      · split_ifs <;> rfl
      · rfl

/-- A content with the name that it is put in place under. -/
structure Demand where
  name : String
  content : Content

namespace Demand

/-- The change that meets a demand. -/
def change (directory : TaskDirectory) (demand : Demand) : Outcome Change := do
  return demand.content.change (← stagingPath directory demand.name)

/-- Meets a demand, if it is one. -/
def fulfil (directory : TaskDirectory) (demand : Outcome Demand) : FileAction Unit := do
  (← (← demand).change directory).action

/-- The demand of an entry with a content. -/
def ofEntry (content : Value) (name : Option String) : Outcome Demand :=
  match content, name with
  | .file file, name => .ok ⟨name.getD file.basename, .file file⟩
  | .directory _, _ => .error noDirectories
  | other, some name => .ok ⟨name, .text (textOf other)⟩
  | _, none => .error nameless

mutual

/-- The demands of a value. -/
def ofValue : Value → List (Outcome Demand)
  | .null => []
  | .file file => [.ok ⟨file.basename, .file file⟩]
  | .array items => ofValues items
  | .directory _ => [.error noDirectories]
  | other => [.error (noFile other)]

/-- The demands of some values. -/
def ofValues : List Value → List (Outcome Demand)
  | [] => []
  | item :: rest => ofValue item ++ ofValues rest

end

/-- The demands of an entry of a requirement. -/
def ofListed (interpreter : Interpreter) (context : ExprContext) : Document.WorkDirEntry → List (Outcome Demand)
  | .named source name _ => [do
      let content ← ExprFault.orFail (evaluate interpreter source context)
      let name ← name.mapM fun n => ExprFault.orFail (evaluateString interpreter n context)
      ofEntry content name]
  | .expression source =>
    match ExprFault.orFail (evaluate interpreter source context) with
    | .ok value => ofValue value
    | .error failure => [.error failure]
  | .literal json => ofValue (Value.ofJson json)

end Demand

/-- The demands of a listing. -/
def demands (interpreter : Interpreter) (context : ExprContext) (listing : List Document.WorkDirEntry) :
    List (Outcome Demand) :=
  listing.flatMap (Demand.ofListed interpreter context)

open FileWork (Acts)

variable {directory : TaskDirectory}

lemma fulfil_eq (demand : Demand) :
    Demand.fulfil directory (.ok demand) = (liftM (demand.change directory) : FileAction Change) >>= Change.action :=
  rfl

lemma fulfil_ok (demand : Demand) :
    Demand.fulfil directory (.ok demand) =
      (do (demand.content.change (← stagingPath directory demand.name)).action) := by
  rw [fulfil_eq, Demand.change]
  cases stagingPath directory demand.name <;> rfl

lemma acts_stageFile (file : FileValue) (name : Option String) :
    Acts (stageFile directory file name)
      (Demand.fulfil directory (.ok ⟨name.getD file.basename, .file file⟩)) := by
  rw [fulfil_ok, stageFile]
  refine (FileWork.acts_lift _).bind fun target => ?_
  cases hcontents : file.contents with
  | none =>
      simp only [Content.change, hcontents]
      exact (FileWork.acts_act _).bind fun _ => FileWork.acts_record _ _
  | some contents =>
      simp only [Content.change, hcontents]
      split_ifs
      · exact (FileWork.acts_act _).thenRecord _ _
      · exact (FileWork.acts_act _).bind fun _ => FileWork.acts_record _ _

lemma acts_stageText (content : Value) (name : String) :
    Acts (stageText directory content (some name))
      (Demand.fulfil directory (.ok ⟨name, .text (textOf content)⟩)) := by
  rw [fulfil_ok, stageText]
  exact (FileWork.acts_lift _).bind fun target => (FileWork.acts_act _).afterRecord _ _

lemma acts_stageEntry (content : Value) (name : Option String) :
    Acts (stageEntry directory content name) (Demand.fulfil directory (Demand.ofEntry content name)) := by
  cases content with
  | file file => exact acts_stageFile file name
  | directory => exact FileWork.acts_throw _
  | _ =>
      cases name with
      | none => exact FileWork.acts_throw _
      | some name => exact acts_stageText _ name

mutual

/-- One case for each kind of value; an array is put in place item by item. -/
lemma acts_stageValue : ∀ value : Value,
    Acts (stageValue directory value) ((Demand.ofValue value).forM (Demand.fulfil directory))
  | .null => FileWork.acts_pure ()
  | .file file => (acts_stageFile file none).single
  | .array items => acts_stageValues items
  | .directory _ => (FileWork.acts_throw noDirectories).single
  | .bool b => (FileWork.acts_throw (noFile (.bool b))).single
  | .int n => (FileWork.acts_throw (noFile (.int n))).single
  | .float x => (FileWork.acts_throw (noFile (.float x))).single
  | .str s => (FileWork.acts_throw (noFile (.str s))).single
  | .record fields => (FileWork.acts_throw (noFile (.record fields))).single

lemma acts_stageValues : ∀ items : List Value,
    Acts (stageValues directory items) ((Demand.ofValues items).forM (Demand.fulfil directory))
  | [] => FileWork.acts_pure ()
  | item :: rest => (acts_stageValue item).append (acts_stageValues rest)

end

lemma acts_stage (interpreter : Interpreter) (context : ExprContext) : ∀ entry : Document.WorkDirEntry,
    Acts (stage interpreter directory context entry)
      ((Demand.ofListed interpreter context entry).forM (Demand.fulfil directory))
  | .named source name writable => by
      rw [stage, Demand.ofListed]
      refine Acts.single ?_
      cases ExprFault.orFail (evaluate interpreter source context) with
      | error failure => exact FileWork.acts_throw failure
      | ok content =>
          cases name with
          | none => exact acts_stageEntry content none
          | some n =>
              rw [Option.mapM_some, Option.mapM_some]
              cases ExprFault.orFail (evaluateString interpreter n context) with
              | error failure => exact FileWork.acts_throw failure
              | ok name => exact acts_stageEntry content (some name)
  | .expression source => by
      rw [stage, Demand.ofListed]
      cases ExprFault.orFail (evaluate interpreter source context) with
      | error failure => exact (FileWork.acts_throw failure).single
      | ok value => exact acts_stageValue value
  | .literal json => acts_stageValue (Value.ofJson json)

/-- **To put a listing in place** is to meet its demands one after the other. -/
lemma acts_stageAll (interpreter : Interpreter) (directory : TaskDirectory) (context : ExprContext) :
    ∀ listing : List Document.WorkDirEntry,
    Acts (stageAll interpreter directory context listing)
      ((demands interpreter context listing).forM (Demand.fulfil directory))
  | [] => FileWork.acts_pure ()
  | entry :: rest => (acts_stage interpreter context entry).append (acts_stageAll interpreter directory context rest)

/-! ## Refusal -/

/-- Every change that meets a demand goes into the working directory. -/
lemma goesInto_target {demand : Demand} {change : Change} (h : demand.change directory = .ok change) :
    Path.GoesInto directory.root change.target := by
  rw [Demand.change, stagingPath] at h
  split_ifs at h with hinside
  · obtain rfl : demand.content.change (Path.join directory.root demand.name) = change := Except.ok.inj h
    rw [Content.target_change]
    exact goesInto_join (staysInside_iff.mp hinside)
  · cases h

/-- A demand whose name leads out is not met. -/
lemma fulfil_of_leadsOut {demand : Demand} (h : Path.LeadsOut demand.name) :
    Demand.fulfil directory (.ok demand) = throw (leadsOut demand.name) := by
  have hrefused : stagingPath directory demand.name = .error (leadsOut demand.name) := by
    rw [stagingPath, if_neg fun hinside => staysInside_iff.mp hinside h]
  rw [fulfil_ok, hrefused]
  rfl

/-- Nor is any demand after it: the work ends with the refusal. -/
lemma forM_of_leadsOut {before after : List (Outcome Demand)} {demand : Demand} (h : Path.LeadsOut demand.name) :
    (before ++ .ok demand :: after).forM (Demand.fulfil directory) =
      (do before.forM (Demand.fulfil directory); throw (leadsOut demand.name)) := by
  have happend : (before ++ .ok demand :: after).forM (Demand.fulfil directory) =
      (do before.forM (Demand.fulfil directory); (.ok demand :: after).forM (Demand.fulfil directory)) :=
    List.forM_append
  have hcons : (.ok demand :: after).forM (Demand.fulfil directory) =
      (do Demand.fulfil directory (.ok demand); after.forM (Demand.fulfil directory)) := rfl
  rw [happend, hcons, fulfil_of_leadsOut h]
  rfl

lemma fails_of_throw (action : FileAction Unit) (failure : Failure) (files : FileTree) :
    ∃ refusal, ((action >>= fun _ => throw failure : FileAction Unit) files).1 = .error refusal := by
  rw [FileWork.action_bind]
  rcases action files with ⟨refusal | _, files'⟩
  · exact ⟨refusal, rfl⟩
  · exact ⟨failure, rfl⟩

/-- **Nothing leads out of the working directory.**  A listing is put in place by meeting its demands one after the
other; each change that meets one goes into the working directory.  A demand whose name leads out ends the work with a
failure of its own, before anything is done for it and after all demands before it are met.  It does not matter what
interprets the expressions of the listing. -/
theorem staging_stays_inside (interpreter : Interpreter) (directory : TaskDirectory) (context : ExprContext)
    (listing : List Document.WorkDirEntry) :
    Acts (stageAll interpreter directory context listing)
        ((demands interpreter context listing).forM (Demand.fulfil directory)) ∧
      (∀ (demand : Demand) (change : Change), demand.change directory = .ok change →
        Path.GoesInto directory.root change.target) ∧
      ∀ before demand after, demands interpreter context listing = before ++ .ok demand :: after →
        Path.LeadsOut demand.name →
        Acts (stageAll interpreter directory context listing)
            (do before.forM (Demand.fulfil directory); throw (leadsOut demand.name)) ∧
          ∀ files events, ∃ failure,
            (stageAll interpreter directory context listing (files, events)).1 = .error failure := by
  have hacts := acts_stageAll interpreter directory context listing
  refine ⟨hacts, fun _ _ => goesInto_target, ?_⟩
  intro before demand after hdemands hout
  rw [hdemands, forM_of_leadsOut hout] at hacts
  refine ⟨hacts, fun files events => ?_⟩
  obtain ⟨more, hrun⟩ := hacts files events
  rw [hrun]
  exact fails_of_throw _ _ files

/-- A file that consists of a name and contents. -/
def literalFile (basename : String) : FileValue := { FileValue.blank with basename, contents := some "text" }

/-- A listing of a file within two arrays, and of one that leads out. -/
def nestedListing : List Document.WorkDirEntry :=
  [.literal (.arr [.arr [(literalFile "in/a").toJson], .null, (literalFile "../b").toJson])]

/-- What is demanded with such a file. -/
def literalDemand (basename : String) : Demand := ⟨basename, .file (literalFile basename)⟩

/-- The first file is written into the working directory, and nothing is done for the second. -/
theorem nested_files_staged :
    demands evaluateJson default nestedListing = [.ok (literalDemand "in/a")] ++ [.ok (literalDemand "../b")] ∧
      Path.LeadsOut "../b" ∧ Path.GoesInto "/work" "/work/in/a" ∧
      Acts (stageAll evaluateJson ⟨"/work", "/temp"⟩ default nestedListing)
        (do Files.writeFile "/work/in/a" (Text.encode "text"); throw (leadsOut "../b")) := by
  have hdemands : demands evaluateJson default nestedListing =
      [.ok (literalDemand "in/a")] ++ [.ok (literalDemand "../b")] := by rfl
  have hout : Path.LeadsOut (literalDemand "../b").name := .inr (.inr (by decide))
  have hchange : (literalDemand "in/a").change ⟨"/work", "/temp"⟩ =
      .ok (.write "/work/in/a" (Text.encode "text")) := by rfl
  obtain ⟨-, hinside, hrefused⟩ := staging_stays_inside evaluateJson ⟨"/work", "/temp"⟩ default nestedListing
  obtain ⟨hacts, -⟩ := hrefused [.ok (literalDemand "in/a")] (literalDemand "../b") [] hdemands hout
  have hmet : [.ok (literalDemand "in/a")].forM (Demand.fulfil ⟨"/work", "/temp"⟩) =
      Files.writeFile "/work/in/a" (Text.encode "text") := by
    rw [FileWork.forM_single, fulfil_eq, hchange]
    rfl
  rw [hmet] at hacts
  have hinto := hinside _ _ hchange
  exact ⟨hdemands, hout, hinto, hacts⟩

end Tool

end WorkflowEngine
