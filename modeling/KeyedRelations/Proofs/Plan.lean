import KeyedRelations.Plan
import Mathlib.Data.List.Nodup

/-!
# What a plan promises

Planning is the gate of all queries: what a subject is asked in a plan is what the query
asks of it, and it is something that the structure of the subject can answer.  Everything
that is proved about selections starts from here and never from the checks themselves.
-/

namespace KeyedRelations

/-- What is made of a result has no error of its own. -/
theorem error_of_map {ε α β : Type} {result : Except ε α} {f : α → β} {e : ε}
    (h : result.map f = .error e) : result = .error e := by
  cases result with
  | error cause => exact congrArg Except.error (Except.error.inj h)
  | ok a => cases h

/-- What is made of a result is made of what succeeded. -/
theorem exists_of_map {ε α β : Type} {result : Except ε α} {f : α → β} {b : β}
    (h : result.map f = .ok b) : ∃ a, result = .ok a ∧ f a = b := by
  cases result with
  | error cause => cases h
  | ok a => exact ⟨a, rfl, Except.ok.inj h⟩

/-- Where errors are changed, what succeeded stays. -/
theorem ok_of_mapError {ε ε' α : Type} {result : Except ε α} {f : ε → ε'} {a : α}
    (h : result.mapError f = .ok a) : result = .ok a := by
  cases result with
  | error cause => cases h
  | ok a' => exact congrArg Except.ok (Except.ok.inj h)

/-- What later stages rely on about one subject of a plan. -/
structure SubjectPlan.Answerable (p : SubjectPlan) : Prop where
  /-- The structure can answer every predicate. -/
  answers : ∀ c ∈ p.predicates, p.kind.answers c = true
  /-- What a glob is compared with is a text. -/
  text : ∀ c ∈ p.predicates, c.op = .glob → ∃ glob, c.value = .text glob
  /-- The columns to show are columns of the structure. -/
  columns : ∀ column ∈ p.columns, p.kind.hasColumn column = true

/-- The subject with other columns of a query to show. -/
abbrev SubjectPlan.showing (columns : List ColumnRef) (p : SubjectPlan) : SubjectPlan :=
  { p with columns := (columns.filter (·.subject = p.name)).map (·.column) }

/-- The plan with other columns of a query to show. -/
abbrev Plan.showing (columns : List ColumnRef) (plan : Plan) : Plan :=
  ⟨plan.primary.showing columns, plan.others.map (·.showing columns)⟩

theorem Plan.subjects_showing (columns : List ColumnRef) (plan : Plan) :
    (plan.showing columns).subjects = plan.subjects.map (·.showing columns) := rfl

theorem Value.text?_ne_none_iff {v : Value} : v.text? ≠ none ↔ ∃ s, v = .text s := by
  cases v <;> simp [Value.text?]

/-- The structure that is accepted is that of the entity, unless its word is unknown. -/
theorem Entity.kindFor_eq_ok_iff {e : Entity} {strict : Bool} {origin : Origin} {s : Structure} :
    e.kindFor strict origin = .ok s ↔
      s = e.kind ∧ (strict = true → e.unknownKind? = none) := by
  rw [kindFor]
  cases e.unknownKind? with
  | none => simp [eq_comm]
  | some word => cases strict <;> simp [eq_comm]

/-- A structure that is accepted is that of the entity. -/
theorem Entity.kind_of_kindFor {e : Entity} {strict : Bool} {origin : Origin} {s : Structure}
    (h : e.kindFor strict origin = .ok s) : s = e.kind := (kindFor_eq_ok_iff.mp h).1

/-- The entity that a query means by the subject in a place. -/
def Planner.entity? (planner : Planner) (main : Option Entity) (place : Nat) (s : Subject) :
    Option Entity :=
  if place = 0 then main.or (planner.catalog.get? s.entity) else planner.catalog.get? s.entity

namespace Planner

variable {planner : Planner} {q : Query} {main : Option Entity} {plan : Plan} {p : SubjectPlan}

/-- Behind the first place the catalog says what entity is meant. -/
theorem entity?_succ (planner : Planner) (main : Option Entity) (place : Nat) (s : Subject) :
    planner.entity? main (place + 1) s = planner.entity? none place s := by
  cases place <;> rfl

/-- The plans of subjects begin with one for the first, whose alias is new. -/
theorem planSubjects_cons_iff {earlier : List String} {s : Subject} {rest : List Subject}
    {plans : List SubjectPlan} :
    planner.planSubjects q earlier main (s :: rest) = .ok plans ↔
      s.name ∉ earlier ∧ ∃ entity kind others,
        main.or (planner.catalog.get? s.entity) = some entity ∧
        entity.kindFor planner.strict (planner.origin q) = .ok kind ∧
        planner.planSubjects q (s.name :: earlier) none rest = .ok others ∧
        plans = ⟨s.name, entity, kind, q.predicates.filter (·.subject = s.name),
          (q.columns.filter (·.subject = s.name)).map (·.column)⟩ :: others := by
  rw [planSubjects]
  cases hearlier : earlier.contains s.name with
  | true =>
      have hmem : s.name ∈ earlier := by simpa using hearlier
      simp [hmem]
  | false =>
      have hnew : s.name ∉ earlier := by simpa using hearlier
      cases hentity : main.or (planner.catalog.get? s.entity) with
      | none => simp
      | some entity =>
          cases hkind : entity.kindFor planner.strict (planner.origin q) with
          | error e => simp [hkind]
          | ok kind =>
              cases hrest : planner.planSubjects q (s.name :: earlier) none rest with
              | error e => simp [hkind, Except.map]
              | ok others => simp [hnew, hkind, Except.map, eq_comm]

/-- A subject is asked what the query asks of its alias. -/
theorem asked_of_mem_planSubjects {earlier : List String} {subjects : List Subject}
    {plans : List SubjectPlan} (h : planner.planSubjects q earlier main subjects = .ok plans)
    (hp : p ∈ plans) :
    p.predicates = q.predicates.filter (·.subject = p.name) ∧
      p.columns = (q.columns.filter (·.subject = p.name)).map (·.column) := by
  induction subjects generalizing earlier main plans with
  | nil =>
      obtain rfl : [] = plans := by simpa [planSubjects] using h
      simp at hp
  | cons s rest ih =>
      obtain ⟨-, entity, kind, others, -, -, hrest, rfl⟩ := planSubjects_cons_iff.mp h
      rcases List.mem_cons.mp hp with rfl | hp
      · exact ⟨rfl, rfl⟩
      · exact ih hrest hp

/-- The subjects of a plan have aliases of their own. -/
theorem names_of_planSubjects {earlier : List String} {subjects : List Subject}
    {plans : List SubjectPlan} (h : planner.planSubjects q earlier main subjects = .ok plans) :
    (plans.map (·.name)).Nodup ∧ ∀ name ∈ plans.map (·.name), name ∉ earlier := by
  induction subjects generalizing earlier main plans with
  | nil =>
      obtain rfl : [] = plans := by simpa [planSubjects] using h
      simp
  | cons s rest ih =>
      obtain ⟨hnew, entity, kind, others, -, -, hrest, rfl⟩ := planSubjects_cons_iff.mp h
      obtain ⟨hnodup, hapart⟩ := ih hrest
      refine ⟨List.nodup_cons.mpr ⟨fun hmem => ?_, hnodup⟩, ?_⟩
      · exact hapart _ hmem List.mem_cons_self
      · intro name hmem
        rcases List.mem_cons.mp hmem with rfl | hmem
        · exact hnew
        · exact fun hearlier => hapart name hmem (List.mem_cons_of_mem _ hearlier)

/-- Plans stand in the order of their subjects. -/
theorem names_eq_of_planSubjects {earlier : List String} {subjects : List Subject}
    {plans : List SubjectPlan} (h : planner.planSubjects q earlier main subjects = .ok plans) :
    plans.map (·.name) = subjects.map (·.name) := by
  induction subjects generalizing earlier main plans with
  | nil =>
      obtain rfl : [] = plans := by simpa [planSubjects] using h
      rfl
  | cons s rest ih =>
      obtain ⟨-, entity, kind, others, -, -, hrest, rfl⟩ := planSubjects_cons_iff.mp h
      rw [List.map_cons, List.map_cons, ih hrest]

/-- Every subject has its plan. -/
theorem length_planSubjects {earlier : List String} {subjects : List Subject}
    {plans : List SubjectPlan} (h : planner.planSubjects q earlier main subjects = .ok plans) :
    plans.length = subjects.length := by
  simpa using congrArg List.length (names_eq_of_planSubjects h)

/-- The plan in a place is for the subject there and its entity. -/
theorem planSubjects_getElem? {earlier : List String} {subjects : List Subject}
    {plans : List SubjectPlan} (h : planner.planSubjects q earlier main subjects = .ok plans)
    {place : Nat} (hp : plans[place]? = some p) :
    ∃ s, subjects[place]? = some s ∧ p.name = s.name ∧
      planner.entity? main place s = some p.entity ∧ p.kind = p.entity.kind := by
  induction subjects generalizing earlier main plans place with
  | nil =>
      obtain rfl : [] = plans := by simpa [planSubjects] using h
      simp at hp
  | cons s rest ih =>
      obtain ⟨-, entity, kind, others, hentity, hkind, hrest, rfl⟩ := planSubjects_cons_iff.mp h
      cases place with
      | zero =>
          obtain rfl := Option.some.inj hp
          exact ⟨s, rfl, rfl, hentity, Entity.kind_of_kindFor hkind⟩
      | succ place =>
          obtain ⟨s', hs', hname, hentity', hkind'⟩ := ih hrest hp
          exact ⟨s', hs', hname, (entity?_succ _ _ _ _).trans hentity', hkind'⟩

/-- Subjects have plans if their aliases are new and different, and each means an entity whose
structure is accepted. -/
theorem exists_planSubjects_iff {earlier : List String} {subjects : List Subject} :
    (∃ plans, planner.planSubjects q earlier main subjects = .ok plans) ↔
      (subjects.map (·.name)).Nodup ∧ (∀ s ∈ subjects, s.name ∉ earlier) ∧
        ∀ place s, subjects[place]? = some s → ∃ e, planner.entity? main place s = some e ∧
          (planner.strict = true → e.unknownKind? = none) := by
  induction subjects generalizing earlier main with
  | nil => simp [planSubjects]
  | cons s rest ih =>
      constructor
      · rintro ⟨plans, h⟩
        obtain ⟨hnodup, hapart⟩ := names_of_planSubjects h
        rw [names_eq_of_planSubjects h] at hnodup hapart
        refine ⟨hnodup, fun s' hs' => hapart _ (List.mem_map_of_mem hs'), ?_⟩
        obtain ⟨-, entity, kind, others, hentity, hkind, hrest, -⟩ := planSubjects_cons_iff.mp h
        rintro (_ | place) s' hs'
        · obtain rfl := Option.some.inj hs'
          exact ⟨entity, hentity, (Entity.kindFor_eq_ok_iff.mp hkind).2⟩
        · rw [entity?_succ]
          exact (ih.mp ⟨others, hrest⟩).2.2 place s' hs'
      · rintro ⟨hnodup, hapart, hentities⟩
        rw [List.map_cons, List.nodup_cons] at hnodup
        rw [List.forall_mem_cons] at hapart
        obtain ⟨entity, hentity, hknown⟩ := hentities 0 s rfl
        obtain ⟨others, hrest⟩ :
            ∃ others, planner.planSubjects q (s.name :: earlier) none rest = .ok others := by
          refine ih.mpr ⟨hnodup.2, fun s' hs' hmem => ?_, fun place s' hs' => ?_⟩
          · rcases List.mem_cons.mp hmem with hsame | hearlier
            · exact hnodup.1 (hsame ▸ List.mem_map_of_mem hs')
            · exact hapart.2 s' hs' hearlier
          · rw [← entity?_succ planner main]
            exact hentities (place + 1) s' hs'
        exact ⟨_, planSubjects_cons_iff.mpr ⟨hapart.1, entity, entity.kind, others, hentity,
          Entity.kindFor_eq_ok_iff.mpr ⟨rfl, hknown⟩, hrest, rfl⟩⟩

/-- A plan has passed all checks. -/
theorem plan_eq_ok_iff : planner.plan q main = .ok plan ↔
    planner.planSubjects q [] main q.subjects = .ok plan.subjects ∧
      planner.fault? q plan.subjects = none := by
  obtain ⟨primary, others⟩ := plan
  rw [Planner.plan]
  cases hsubjects : planner.planSubjects q [] main q.subjects with
  | error e => simp
  | ok plans =>
      cases plans with
      | nil => simp [Plan.subjects]
      | cons first rest =>
          dsimp only
          cases hfault : planner.fault? q (first :: rest) with
          | some e =>
              simp only [Plan.subjects, Except.ok.injEq, reduceCtorEq, false_iff, not_and]
              intro heq
              simp [← heq, hfault]
          | none =>
              simp only [Plan.subjects, Except.ok.injEq, Plan.mk.injEq, List.cons.injEq]
              constructor
              · rintro ⟨rfl, rfl⟩
                exact ⟨⟨rfl, rfl⟩, hfault⟩
              · exact fun h => h.1

theorem fault?_eq_none_iff {plans : List SubjectPlan} : planner.fault? q plans = none ↔
    (∀ c ∈ q.predicates, planner.predicateFault? q plans c = none) ∧
      (∀ c ∈ q.columns, planner.columnFault? q plans c = none) ∧
      (∀ p ∈ plans, planner.countFault? q p = none) ∧
      ∀ p ∈ plans, planner.answerFault? q p = none := by
  simp [fault?, List.findSome?_eq_none_iff]

theorem predicateFault?_eq_none_iff {plans : List SubjectPlan} {c : Predicate} :
    planner.predicateFault? q plans c = none ↔
      (c.op = .glob → ∃ glob, c.value = .text glob) ∧ ∃ p ∈ plans, p.name = c.subject := by
  rw [predicateFault?]
  split
  next hfault =>
    simp only [reduceCtorEq, false_iff, not_and]
    exact fun htext => absurd hfault.2 (Value.text?_ne_none_iff.mpr (htext hfault.1))
  next hfine =>
    have htext : c.op = .glob → ∃ glob, c.value = .text glob := fun hglob =>
      Value.text?_ne_none_iff.mp fun hmissing => hfine ⟨hglob, hmissing⟩
    cases hany : plans.any (·.name = c.subject) with
    | true =>
        obtain ⟨p, hp, hname⟩ := List.any_eq_true.mp hany
        exact ⟨fun _ => ⟨htext, p, hp, by simpa using hname⟩, fun _ => rfl⟩
    | false =>
        simp only [Bool.false_eq_true, if_false, reduceCtorEq, false_iff]
        rintro ⟨-, p, hp, hname⟩
        exact List.any_eq_false.mp hany p hp (by simpa using hname)

theorem answerFault?_eq_none_iff :
    planner.answerFault? q p = none ↔ ∀ c ∈ p.predicates, p.kind.answers c = true := by
  simp [answerFault?, List.find?_eq_none]

/-- Where aliases differ, a column is fine if the subject of its alias has it. -/
theorem columnFault?_eq_none_iff {plans : List SubjectPlan} (hnodup : (plans.map (·.name)).Nodup)
    {c : ColumnRef} : planner.columnFault? q plans c = none ↔
      ∃ p ∈ plans, p.name = c.subject ∧ p.kind.hasColumn c.column = true := by
  rw [columnFault?]
  cases hfind : plans.find? (·.name = c.subject) with
  | none =>
      have hnone := List.find?_eq_none.mp hfind
      simp only [reduceCtorEq, false_iff]
      rintro ⟨p, hp, hname, -⟩
      exact hnone p hp (by simpa using hname)
  | some found =>
      have hmem := List.mem_of_find?_eq_some hfind
      have hname : found.name = c.subject := by simpa using List.find?_some hfind
      have hsame : ∀ p ∈ plans, p.name = c.subject → p = found := fun p hp hp' =>
        List.inj_on_of_nodup_map hnodup hp hmem (hp'.trans hname.symm)
      dsimp only
      split
      next hhas => exact ⟨fun _ => ⟨found, hmem, hname, hhas⟩, fun _ => rfl⟩
      next hlacks =>
        simp only [reduceCtorEq, false_iff]
        rintro ⟨p, hp, hp', hhas⟩
        exact hlacks (hsame p hp hp' ▸ hhas)

/-- **A subject of a plan can be answered.** -/
theorem answerable_of_plan (h : planner.plan q main = .ok plan) (hp : p ∈ plan.subjects) :
    p.Answerable := by
  obtain ⟨hsubjects, hfault⟩ := plan_eq_ok_iff.mp h
  obtain ⟨hpredicates, hcolumns, -, hanswers⟩ := fault?_eq_none_iff.mp hfault
  obtain ⟨hasked, hshown⟩ := asked_of_mem_planSubjects hsubjects hp
  obtain ⟨hnodup, -⟩ := names_of_planSubjects hsubjects
  constructor
  case answers => exact answerFault?_eq_none_iff.mp (hanswers p hp)
  case text =>
    intro c hc
    rw [hasked] at hc
    exact (predicateFault?_eq_none_iff.mp (hpredicates c (List.mem_filter.mp hc).1)).1
  case columns =>
    intro column hcolumn
    rw [hshown] at hcolumn
    obtain ⟨c, hc, rfl⟩ := List.mem_map.mp hcolumn
    obtain ⟨hc, hsubject⟩ := List.mem_filter.mp hc
    obtain ⟨p', hp', hname, hhas⟩ := (columnFault?_eq_none_iff hnodup).mp (hcolumns c hc)
    have hsame : p' = p := List.inj_on_of_nodup_map hnodup hp' hp
      (hname.trans (by simpa using hsubject))
    exact hsame ▸ hhas

/-! ### Plans with other columns -/

/-- The structure of an entity does not depend on the query, once it is accepted. -/
theorem kindFor_of_ok {e : Entity} {strict : Bool} {origin : Origin} {kind : Structure}
    (h : e.kindFor strict origin = .ok kind) (origin' : Origin) :
    e.kindFor strict origin' = .ok kind :=
  Entity.kindFor_eq_ok_iff.mpr (Entity.kindFor_eq_ok_iff.mp h)

/-- If unknown words are no error, every entity has a structure. -/
theorem kindFor_lenient (e : Entity) (origin : Origin) : e.kindFor false origin = .ok e.kind :=
  Entity.kindFor_eq_ok_iff.mpr ⟨rfl, Bool.false_ne_true.elim⟩

/-! ### Queries without a plan -/

theorem kind_of_planSubjects_error {earlier : List String} {subjects : List Subject}
    {e : QueryError} (h : planner.planSubjects q earlier main subjects = .error e) :
    e.kind ≠ .backend := by
  induction subjects generalizing earlier main with
  | nil => cases h
  | cons s rest ih =>
      rw [planSubjects] at h
      split at h
      · obtain rfl := Except.error.inj h
        exact ErrorKind.noConfusion
      · split at h
        · obtain rfl := Except.error.inj h
          exact ErrorKind.noConfusion
        next entity _ =>
          split at h
          next cause hkind =>
            rw [Entity.kindFor] at hkind
            split at hkind
            · split at hkind
              · rw [← Except.error.inj h, ← Except.error.inj hkind]
                exact ErrorKind.noConfusion
              · cases hkind
            · cases hkind
          next kind _ => exact ih (error_of_map h)

theorem kind_of_fault? {plans : List SubjectPlan} {e : QueryError}
    (h : planner.fault? q plans = some e) : e.kind ≠ .backend := by
  simp only [fault?, Option.or_eq_some_iff] at h
  rcases h with h | ⟨-, h | ⟨-, h | ⟨-, h⟩⟩⟩ <;>
    obtain ⟨x, -, h⟩ := List.exists_of_findSome?_eq_some h
  · rw [predicateFault?] at h
    split at h
    · exact Option.some.inj h ▸ ErrorKind.noConfusion
    · split at h
      · cases h
      · exact Option.some.inj h ▸ ErrorKind.noConfusion
  · rw [columnFault?] at h
    split at h
    · exact Option.some.inj h ▸ ErrorKind.noConfusion
    · split at h
      · cases h
      · exact Option.some.inj h ▸ ErrorKind.noConfusion
  · rw [countFault?] at h
    split at h
    · exact Option.some.inj h ▸ ErrorKind.noConfusion
    · cases h
  · obtain ⟨c, -, rfl⟩ := Option.map_eq_some_iff.mp h
    exact ErrorKind.noConfusion

/-- A query has no plan for reasons that lie in the query. -/
theorem kind_of_plan_error {e : QueryError} (h : planner.plan q main = .error e) :
    e.kind ≠ .backend := by
  rw [Planner.plan] at h
  split at h
  next cause hsubjects => exact Except.error.inj h ▸ kind_of_planSubjects_error hsubjects
  next =>
    obtain rfl := Except.error.inj h
    exact ErrorKind.noConfusion
  next primary others _ =>
    split at h
    next fault hfault => exact Except.error.inj h ▸ kind_of_fault? hfault
    next => cases h

/-- A query with the same predicates gives subjects the same plans but for their columns. -/
theorem planSubjects_showing {q' : Query} (hpredicates : q'.predicates = q.predicates)
    {earlier : List String} {subjects : List Subject} {plans : List SubjectPlan}
    (h : planner.planSubjects q earlier main subjects = .ok plans) :
    planner.planSubjects q' earlier main subjects = .ok (plans.map (·.showing q'.columns)) := by
  induction subjects generalizing earlier main plans with
  | nil =>
      obtain rfl : [] = plans := by simpa [planSubjects] using h
      rfl
  | cons s rest ih =>
      obtain ⟨hnew, entity, kind, others, hentity, hkind, hrest, rfl⟩ :=
        planSubjects_cons_iff.mp h
      refine planSubjects_cons_iff.mpr ⟨hnew, entity, kind, _, hentity, kindFor_of_ok hkind _,
        ih hrest, ?_⟩
      rw [List.map_cons, SubjectPlan.showing, hpredicates]

/-- **A plan survives other columns**, as long as its structures have them. -/
theorem plan_showing {q' : Query} (h : planner.plan q main = .ok plan)
    (hsubjects : q'.subjects = q.subjects) (hpredicates : q'.predicates = q.predicates)
    (hcolumns : ∀ c ∈ q'.columns, ∃ p ∈ plan.subjects,
      p.name = c.subject ∧ p.kind.hasColumn c.column = true) :
    planner.plan q' main = .ok (plan.showing q'.columns) := by
  obtain ⟨hplans, hfault⟩ := plan_eq_ok_iff.mp h
  obtain ⟨hknown, -, hcounts, hanswers⟩ := fault?_eq_none_iff.mp hfault
  have hplans' := planSubjects_showing hpredicates hplans
  rw [← hsubjects] at hplans'
  refine plan_eq_ok_iff.mpr ⟨hplans', ?_⟩
  rw [Plan.subjects_showing]
  refine fault?_eq_none_iff.mpr ⟨?_, ?_, ?_, ?_⟩
  · intro c hc
    obtain ⟨htext, p, hp, hname⟩ := predicateFault?_eq_none_iff.mp (hknown c (hpredicates ▸ hc))
    exact predicateFault?_eq_none_iff.mpr ⟨htext, _, List.mem_map_of_mem hp, hname⟩
  · intro c hc
    obtain ⟨p, hp, hname, hhas⟩ := hcolumns c hc
    exact (columnFault?_eq_none_iff (names_of_planSubjects hplans').1).mpr
      ⟨_, List.mem_map_of_mem hp, hname, hhas⟩
  · intro p' hp'
    obtain ⟨p, hp, rfl⟩ := List.mem_map.mp hp'
    have hcount := hcounts p hp
    rw [countFault?] at hcount ⊢
    split at hcount
    next => cases hcount
    next hfew => exact if_neg hfew
  · intro p' hp'
    obtain ⟨p, hp, rfl⟩ := List.mem_map.mp hp'
    exact answerFault?_eq_none_iff.mpr (answerFault?_eq_none_iff.mp (hanswers p hp))

end Planner

end KeyedRelations
