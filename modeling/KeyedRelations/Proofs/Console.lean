import Mathlib
import KeyedRelations.Console
import KeyedRelations.Proofs.Storage.Atomicity
import KeyedRelations.Proofs.Storage.Confined

/-!
# Lines of a script that fail

A line whose statement fails is shown as an error and has no effect on the lines behind it.
What a failing statement leaves behind is a storage with the same trees
(`Storage.dispatch_trees`) that is alike in all that statements depend on, so the lines behind
cannot tell whether it was there (`Console.Alike`).  A script without its failing lines
(`Console.withoutFailures`) therefore shows what the script has shown but for the errors.
-/

namespace KeyedRelations

/-! ### Lines -/

namespace Text

/-- Lines are what stands between line feeds. -/
theorem splitLines_eq_splitOn (cs : List Char) : splitLines cs = cs.splitOn '\n' := by
  induction cs with
  | nil => rfl
  | cons c rest ih =>
      rw [splitLines, ih, List.splitOn_cons_eq_if_modifyHead]
      by_cases hc : c = '\n'
      · simp [hc]
      · obtain ⟨line, lines, hrest⟩ := List.exists_cons_of_ne_nil
          (List.splitOnP_ne_nil (· == '\n') rest)
        rw [← List.splitOn] at hrest
        simp [hc, hrest]

/-- A line has no line feed. -/
theorem not_mem_of_mem_splitLines {cs line : List Char} (h : line ∈ splitLines cs) :
    '\n' ∉ line := by
  induction cs generalizing line with
  | nil =>
      rw [List.mem_singleton.mp h]
      exact List.not_mem_nil
  | cons c rest ih =>
      rw [splitLines] at h
      split at h
      · rcases List.mem_cons.mp h with rfl | h
        · exact List.not_mem_nil
        · exact ih h
      next hc =>
        split at h
        next first lines hrest =>
          rw [hrest] at ih
          rcases List.mem_cons.mp h with rfl | h
          · intro hmem
            rcases List.mem_cons.mp hmem with heq | hmem
            · exact hc heq.symm
            · exact ih List.mem_cons_self hmem
          · exact ih (List.mem_cons_of_mem _ h)
        · rw [List.mem_singleton.mp h, List.mem_singleton]
          exact fun heq => hc heq.symm

end Text

namespace Console

variable {c c' : Console}

/-- The query documents on some lines. -/
def statementsOn (lines : List (List Char)) : List String :=
  ((lines.map Text.trimChars).filter isStatement).map .ofList

/-- The statements of joined lines are those on the lines. -/
theorem statements_joined {lines : List (List Char)} (h : ∀ line ∈ lines, '\n' ∉ line) :
    statements (.ofList (['\n'].intercalate lines)) = statementsOn lines := by
  rw [statements, String.toList_ofList, Text.splitLines_eq_splitOn]
  cases lines with
  | nil => rfl
  | cons line rest => rw [List.splitOn_intercalate '\n' h (List.cons_ne_nil _ _), statementsOn]

/-! ### What is shown -/

/-- What is shown of a statement. -/
inductive Shown where
  | answer (text : String)
  | error (text : String)
  deriving DecidableEq, Repr

/-- The text that is shown. -/
def Shown.text : Shown → String
  | answer text | error text => text

/-- Whether an error is shown. -/
def Shown.isError : Shown → Bool
  | answer _ => false
  | error _ => true

/-- What is shown of statements that are run one after the other. -/
def transcript : List String → Console → List Shown
  | [], _ => []
  | statement :: rest, c =>
    match c.execute statement with
    | (.ok output, c) => (if output = "" then [] else [.answer output]) ++ transcript rest c
    | (.error e, c) => .error (c.formatError e) :: transcript rest c

/-- **What comes of a script** is its transcript: as many failures as errors are shown. -/
theorem runStatements_fst (statements : List String) (c : Console) :
    (runStatements statements c).1 =
      ⟨(transcript statements c).countP Shown.isError,
        (transcript statements c).map Shown.text⟩ := by
  induction statements generalizing c with
  | nil => rfl
  | cons statement rest ih =>
      rw [runStatements, transcript]
      rcases c.execute statement with ⟨⟨e⟩ | ⟨output⟩, after⟩
      · dsimp only
        rw [List.countP_cons_of_pos (by rfl), List.map_cons, ih]
        rfl
      · by_cases hempty : output = "" <;> simp [ih, hempty, Shown.isError, Shown.text]

/-! ### Statements that fail -/

theorem execute_of_failure {text : String} {failure : Json.Failure}
    (h : Query.ofText text = .error failure) (c : Console) :
    c.execute text = (.error (.notAQuery failure), c) := by
  simp only [execute, h]

theorem execute_of_query {text : String} {q : Query} (h : Query.ofText text = .ok q)
    (c : Console) :
    c.execute text =
      (match (c.storage.execute Store.handler q none).1 with
        | .error e => .error (.query e)
        | .ok result => .ok (c.answer q result),
      { c with storage := (c.storage.execute Store.handler q none).2 }) := by
  simp only [execute, h]
  cases (c.storage.execute Store.handler q none).1 with
  | error e => rfl
  | ok result => simp only [answer]

/-- Consoles that answer and show the same. -/
structure Alike (c c' : Console) : Prop where
  storage : Storage.Alike c.storage c'.storage
  trees : c.storage.store.trees = c'.storage.store.trees
  format : c.format = c'.format

namespace Alike

theorem refl (h : c.storage.pool.Opens) : Alike c c := ⟨.refl h, rfl, rfl⟩

theorem symm (h : Alike c c') : Alike c' c := ⟨h.storage.symm, h.trees.symm, h.format.symm⟩

theorem trans {c'' : Console} (h : Alike c c') (h' : Alike c' c'') : Alike c c'' :=
  ⟨h.storage.trans h'.storage, h.trees.trans h'.trees, h.format.trans h'.format⟩

theorem withStorage {s s' : Storage Store} (h : c.format = c'.format)
    (hstorage : Storage.Alike s s') (htrees : s.store.trees = s'.store.trees) :
    Alike { c with storage := s } { c' with storage := s' } := ⟨hstorage, htrees, h⟩

/-- Consoles that are alike answer a statement the same, and are alike afterwards. -/
theorem execute (h : Alike c c') (text : String) :
    (c.execute text).1 = (c'.execute text).1 ∧ Alike (c.execute text).2 (c'.execute text).2 := by
  cases hquery : Query.ofText text with
  | error failure =>
      rw [execute_of_failure hquery, execute_of_failure hquery]
      exact ⟨rfl, h⟩
  | ok q =>
      obtain ⟨hresult, htrees, hstorage⟩ := Storage.execute_same h.storage h.trees q none
      have hanswer : c.answer q = c'.answer q := by
        funext result
        simp only [answer, h.format]
      rw [execute_of_query hquery, execute_of_query hquery, hresult, hanswer]
      exact ⟨rfl, .withStorage h.format hstorage htrees⟩

end Alike

/-- **A statement that fails** leaves nothing behind that a later one depends on. -/
theorem alike_of_execute_error (hopens : c.storage.pool.Opens) {text : String} {e : ConsoleError}
    (h : (c.execute text).1 = .error e) : Alike c (c.execute text).2 := by
  cases hquery : Query.ofText text with
  | error failure =>
      rw [execute_of_failure hquery]
      exact .refl hopens
  | ok q =>
      have halike := Storage.execute_alike hopens q none
      rw [execute_of_query hquery] at h ⊢
      rcases hresult : (c.storage.execute Store.handler q none).1 with ⟨e'⟩ | ⟨result⟩
      · have htrees : (c.storage.execute Store.handler q none).2.store.trees =
            c.storage.store.trees := by
          rw [Storage.execute_store]
          exact Storage.dispatch_trees (Storage.execute_fst Store.handler q none _ ▸ hresult)
        exact .withStorage rfl halike htrees.symm
      · rw [hresult] at h
        cases h

/-- The statements of a run that do not fail. -/
def successes : List String → Console → List String
  | [], _ => []
  | statement :: rest, c =>
    match c.execute statement with
    | (.ok _, c) => statement :: successes rest c
    | (.error _, c) => successes rest c

/-- **The statements that do not fail** show by themselves what they show among the others. -/
theorem transcript_successes (h : Alike c c') (statements : List String) :
    transcript (successes statements c) c' =
        (transcript statements c).filter (!·.isError) ∧
      Alike (runStatements statements c).2 (runStatements (successes statements c) c').2 := by
  induction statements generalizing c c' with
  | nil => exact ⟨rfl, h⟩
  | cons statement rest ih =>
      obtain ⟨hsame, hafter⟩ := h.execute statement
      have hfails : ∀ e, (c.execute statement).1 = .error e → Alike c (c.execute statement).2 :=
        fun _ => alike_of_execute_error h.storage.opens
      rw [successes, transcript, runStatements]
      rcases hfirst : c.execute statement with ⟨⟨e⟩ | ⟨output⟩, after⟩
      · rw [hfirst] at hfails
        obtain ⟨hrest, halike⟩ := ih ((hfails e rfl).symm.trans h)
        refine ⟨?_, halike⟩
        rw [List.filter_cons_of_neg (by simp [Shown.isError])]
        exact hrest
      · rw [hfirst] at hsame hafter
        rcases hfirst' : c'.execute statement with ⟨answer', after'⟩
        rw [hfirst'] at hsame hafter
        obtain rfl : .ok output = answer' := hsame
        obtain ⟨hrest, halike⟩ := ih hafter
        simp only [transcript, runStatements, hfirst']
        refine ⟨?_, halike⟩
        rw [hrest, List.filter_append]
        by_cases hempty : output = "" <;> simp [hempty, Shown.isError]

/-! ### Lines that fail -/

/-- The lines of a run but for those whose statement fails. -/
def keptLines : List (List Char) → Console → List (List Char)
  | [], _ => []
  | line :: rest, c =>
    if isStatement (Text.trimChars line) then
      match c.execute (.ofList (Text.trimChars line)) with
      | (.ok _, c) => line :: keptLines rest c
      | (.error _, c) => keptLines rest c
    else line :: keptLines rest c

/-- A script without the lines whose statement fails when it is run. -/
def withoutFailures (c : Console) (script : String) : String :=
  .ofList (['\n'].intercalate (keptLines (Text.splitLines script.toList) c))

theorem keptLines_sublist (lines : List (List Char)) (c : Console) :
    (keptLines lines c).Sublist lines := by
  induction lines generalizing c with
  | nil => exact .slnil
  | cons line rest ih =>
      rw [keptLines]
      split
      · rcases c.execute (.ofList (Text.trimChars line)) with ⟨⟨e⟩ | ⟨output⟩, after⟩
        · exact (ih after).cons line
        · exact (ih after).cons_cons line
      · exact (ih c).cons_cons line

/-- On the lines that are kept stand the statements that do not fail. -/
theorem statementsOn_keptLines (lines : List (List Char)) (c : Console) :
    statementsOn (keptLines lines c) = successes (statementsOn lines) c := by
  induction lines generalizing c with
  | nil => rfl
  | cons line rest ih =>
      by_cases hstatement : isStatement (Text.trimChars line) = true
      · have hhead : ∀ lines, statementsOn (line :: lines) =
            .ofList (Text.trimChars line) :: statementsOn lines := fun lines => by
          rw [statementsOn, List.map_cons, List.filter_cons_of_pos hstatement, List.map_cons,
            statementsOn]
        rw [keptLines, if_pos hstatement, hhead, successes]
        rcases c.execute (.ofList (Text.trimChars line)) with ⟨⟨e⟩ | ⟨output⟩, after⟩
        · exact ih after
        · rw [hhead, ih after]
      · have hhead : ∀ lines, statementsOn (line :: lines) = statementsOn lines := fun lines => by
          rw [statementsOn, List.map_cons, List.filter_cons_of_neg hstatement, statementsOn]
        rw [keptLines, if_neg hstatement, hhead, hhead, ih c]

theorem statements_withoutFailures (c : Console) (script : String) :
    statements (c.withoutFailures script) = successes (statements script) c := by
  have hlines : ∀ line ∈ keptLines (Text.splitLines script.toList) c, '\n' ∉ line :=
    fun line hline => Text.not_mem_of_mem_splitLines ((keptLines_sublist _ c).subset hline)
  rw [withoutFailures, statements_joined hlines, statementsOn_keptLines]
  rfl

/-- **Failing lines have no effect on the rest of a script.**  A script has as many failures as
it shows errors.  Without the lines whose statements fail it shows the same but for the errors,
has no failure, and leaves the same trees.  The store may hold anything, and any cursors may be
open, as long as handles can be opened. -/
theorem runScript_withoutFailures (hopens : c.storage.pool.Opens) (script : String) :
    let shown := transcript (statements script) c
    let whole := c.runScript script
    let rest := c.runScript (c.withoutFailures script)
    whole.1 = ⟨shown.countP Shown.isError, shown.map Shown.text⟩ ∧
      rest.1 = ⟨0, (shown.filter (!·.isError)).map Shown.text⟩ ∧
      rest.2.storage.store.trees = whole.2.storage.store.trees := by
  obtain ⟨hshown, halike⟩ := transcript_successes (.refl hopens) (statements script)
  intro shown whole rest
  have hrest : rest = c.runStatements (successes (statements script) c) := by
    rw [← statements_withoutFailures]
    rfl
  refine ⟨runStatements_fst _ c, ?_, ?_⟩
  · rw [hrest, runStatements_fst, hshown, List.countP_filter]
    simp [shown]
  · rw [hrest]
    exact halike.trees.symm

/-- A console on an empty store, whose catalog has one entity. -/
def onNotes : Console where
  storage := .new {} (Pool.ofConfig .default) (Catalog.empty.register (.ofName "notes")) .empty
  format := .csv

/-- A query document that deletes all notes. -/
def deleteNotes : String :=
  "\x7b\"action\":\"DELETE\",\"subjects\":[\x7b\"alias\":\"notes\",\"entity\":\"notes\"\x7d]\x7d"

/-- A line that is no query document, and one that is. -/
def oopsThenDelete : String := "oops\n" ++ deleteNotes ++ "\n"

theorem runScript_withoutFailures_oopsThenDelete :
    onNotes.storage.pool.Opens ∧
      (∃ report, (onNotes.runScript oopsThenDelete).1 = ⟨1, [report, "affected,key\n"]⟩) ∧
      (onNotes.runScript (onNotes.withoutFailures oopsThenDelete)).1 = ⟨0, ["affected,key\n"]⟩ := by
  have hopens : onNotes.storage.pool.Opens := fun _ => rfl
  obtain ⟨hwhole, hrest, -⟩ := runScript_withoutFailures hopens oopsThenDelete
  obtain ⟨failure, hfailure⟩ : ∃ failure, Query.ofText "oops" = .error failure := ⟨_, by cbv⟩
  have hquery : Query.ofText deleteNotes = .ok (.onEntity .delete "notes") := by cbv
  have hresult : (onNotes.storage.execute Store.handler (.onEntity .delete "notes") none).1 =
      .ok (.ofWrite (.ofNames "notes" (.ofName "notes") [])) := by
    rw [Storage.execute_fst]
    cbv
  have hanswer : onNotes.answer (.onEntity .delete "notes")
      (.ofWrite (.ofNames "notes" (.ofName "notes") [])) = "affected,key\n" := by cbv
  have hstatements : statements oopsThenDelete = ["oops", deleteNotes] := by cbv
  have hshown : transcript (statements oopsThenDelete) onNotes =
      [.error (onNotes.formatError (.notAQuery failure)), .answer "affected,key\n"] := by
    rw [hstatements, transcript, execute_of_failure hfailure]
    dsimp only
    rw [transcript, execute_of_query hquery, hresult]
    simp [transcript, hanswer]
  rw [hshown] at hwhole hrest
  exact ⟨hopens, ⟨_, hwhole⟩, hrest⟩

end Console

end KeyedRelations
