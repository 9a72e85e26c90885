import KeyedRelations.Proofs.Plan
import Mathlib.Data.List.Perm.Basic

/-!
# Which queries have a plan

A query has a plan if it meets a list of conditions, none of which speaks of the checks or of
their order (`Planner.Accepts`).  The plan then groups the query by its subjects
(`Plan.Groups`): the groups stand in the order of the subjects, and every predicate and every
column of the query is in one of them.

An alias means an entity (`Planner.Means`) if a subject of the query has that alias and stands
for the entity, be it by the catalog or because the first entity was given.
-/

namespace KeyedRelations

/-- Grouping by different keys keeps every item once. -/
theorem flatMap_filter_perm {α β : Type} [DecidableEq β] {key : α → β} {keys : List β}
    (hkeys : keys.Nodup) {items : List α} (hcovered : ∀ x ∈ items, key x ∈ keys) :
    (keys.flatMap fun k => items.filter fun x => key x = k).Perm items := by
  induction keys generalizing items with
  | nil =>
      obtain rfl : items = [] := List.eq_nil_iff_forall_not_mem.mpr fun x hx => by
        simpa using hcovered x hx
      exact .nil
  | cons k keys ih =>
      obtain ⟨hnew, hkeys⟩ := List.nodup_cons.mp hkeys
      -- the items of the other keys are grouped by them
      have hothers : (keys.flatMap fun k' => items.filter fun x => key x = k').Perm
          (items.filter fun x => !decide (key x = k)) := by
        have hrest : ∀ x ∈ items.filter fun x => !decide (key x = k), key x ∈ keys := by
          intro x hx
          obtain ⟨hx, hother⟩ := List.mem_filter.mp hx
          exact (List.mem_cons.mp (hcovered x hx)).resolve_left (by simpa using hother)
        convert ih hkeys hrest using 1
        refine List.flatMap_congr fun k' hk' => ?_
        rw [List.filter_filter]
        refine List.filter_congr fun x _ => ?_
        have hne : k' ≠ k := fun heq => hnew (heq ▸ hk')
        by_cases hx : key x = k' <;> simp [hx, hne]
      rw [List.flatMap_cons]
      exact (hothers.append_left _).trans (List.filter_append_perm _ items)

/-! ### Conditions of the checks -/

theorem Structure.answers_eq_true_iff {s : Structure} {c : Predicate} :
    s.answers c = true ↔
      c.column = keyColumn ∨ (c.op = .eq ∧ s = .hash ∧ c.column ≠ "value") := by
  cases s <;> simp [answers, payloadColumn?, @eq_comm _ "value"]

theorem Structure.hasColumn_eq_true_iff {s : Structure} {column : String} :
    s.hasColumn column = true ↔ column = keyColumn ∨ s.payloadColumn? = some column := by
  simp [hasColumn]

theorem Entity.unknownKind?_eq_none_iff {e : Entity} : e.unknownKind? = none ↔
    ∀ word, e.option? storeScope structureOption = some word →
      ∃ kind, Structure.ofWord? word = some kind := by
  simp [unknownKind?, Option.filter_eq_none_iff, ← Option.isSome_iff_exists,
    ← Option.isSome_iff_ne_none]

namespace Planner

variable {planner : Planner} {q : Query} {main : Option Entity} {plans : List SubjectPlan}

theorem countFault?_eq_none_iff {p : SubjectPlan} :
    planner.countFault? q p = none ↔ (p.kind ≠ .hash → p.predicates.length ≤ 1) := by
  cases hkind : p.kind <;> simp [countFault?, hkind, Structure.manyPredicates]

/-- In a query an alias means an entity. -/
def Means (planner : Planner) (q : Query) (main : Option Entity) (name : String) (e : Entity) :
    Prop :=
  ∃ place s, q.subjects[place]? = some s ∧ s.name = name ∧ planner.entity? main place s = some e

/-- What a query has to meet. -/
structure Accepts (planner : Planner) (q : Query) (main : Option Entity) : Prop where
  /-- There is a subject. -/
  subjects : q.subjects ≠ []
  /-- Aliases differ. -/
  aliases : (q.subjects.map (·.name)).Nodup
  /-- Every subject stands for an entity. -/
  entities : ∀ place s, q.subjects[place]? = some s → ∃ e, planner.entity? main place s = some e
  /-- A strict planner knows the structure words of these entities. -/
  words : planner.strict = true → ∀ name e, planner.Means q main name e → ∀ word,
    e.option? Entity.storeScope Entity.structureOption = some word →
      ∃ kind, Structure.ofWord? word = some kind
  /-- What a glob is compared with is a text. -/
  texts : ∀ c ∈ q.predicates, c.op = .glob → ∃ glob, c.value = .text glob
  /-- Predicates are on declared aliases. -/
  predicates : ∀ c ∈ q.predicates, c.subject ∈ q.subjects.map (·.name)
  /-- Columns are of declared aliases. -/
  columns : ∀ c ∈ q.columns, c.subject ∈ q.subjects.map (·.name)
  /-- A column is the key or the payload column of the structure. -/
  shown : ∀ c ∈ q.columns, ∀ e, planner.Means q main c.subject e →
    c.column = keyColumn ∨ e.kind.payloadColumn? = some c.column
  /-- Only a hash has more than one predicate. -/
  few : ∀ name e, planner.Means q main name e → e.kind ≠ .hash →
    (q.predicates.filter (·.subject = name)).length ≤ 1
  /-- A predicate is on the key, or compares a field of a hash that is not called `value`. -/
  answered : ∀ c ∈ q.predicates, ∀ e, planner.Means q main c.subject e →
    c.column = keyColumn ∨ (c.op = .eq ∧ e.kind = .hash ∧ c.column ≠ "value")

/-- The aliases of a query mean the entities of their plans. -/
theorem means_iff (hplans : planner.planSubjects q [] main q.subjects = .ok plans)
    {name : String} {e : Entity} :
    planner.Means q main name e ↔ ∃ p ∈ plans, p.name = name ∧ p.entity = e := by
  constructor
  · rintro ⟨place, s, hs, rfl, hentity⟩
    obtain ⟨hplace, -⟩ := List.getElem?_eq_some_iff.mp hs
    rw [← length_planSubjects hplans] at hplace
    have hp := List.getElem?_eq_getElem hplace
    obtain ⟨s', hs', hname, hentity', -⟩ := planSubjects_getElem? hplans hp
    obtain rfl := Option.some.inj (hs.symm.trans hs')
    exact ⟨_, List.getElem_mem hplace, hname, Option.some.inj (hentity'.symm.trans hentity)⟩
  · rintro ⟨p, hp, rfl, rfl⟩
    obtain ⟨place, hplace⟩ := List.getElem?_of_mem hp
    obtain ⟨s, hs, hname, hentity, -⟩ := planSubjects_getElem? hplans hplace
    exact ⟨place, s, hs, hname.symm, hentity⟩

/-- An alias is declared if a plan is for it. -/
theorem mem_names_iff (hplans : planner.planSubjects q [] main q.subjects = .ok plans)
    {name : String} : name ∈ q.subjects.map (·.name) ↔ ∃ p ∈ plans, p.name = name := by
  rw [← names_eq_of_planSubjects hplans, List.mem_map]

/-- The structure of a subject is that of its entity. -/
theorem kind_of_mem_planSubjects (hplans : planner.planSubjects q [] main q.subjects = .ok plans)
    {p : SubjectPlan} (hp : p ∈ plans) : p.kind = p.entity.kind := by
  obtain ⟨place, hplace⟩ := List.getElem?_of_mem hp
  obtain ⟨s, -, -, -, hkind⟩ := planSubjects_getElem? hplans hplace
  exact hkind

/-- The columns of a query are fine if they are columns of declared aliases. -/
theorem columnFaults_eq_none_iff
    (hplans : planner.planSubjects q [] main q.subjects = .ok plans) :
    (∀ c ∈ q.columns, planner.columnFault? q plans c = none) ↔
      (∀ c ∈ q.columns, c.subject ∈ q.subjects.map (·.name)) ∧
      ∀ c ∈ q.columns, ∀ e, planner.Means q main c.subject e →
        c.column = keyColumn ∨ e.kind.payloadColumn? = some c.column := by
  have hnodup := (names_of_planSubjects hplans).1
  rw [← forall₂_and]
  refine forall₂_congr fun c hc => ?_
  rw [columnFault?_eq_none_iff hnodup, mem_names_iff hplans]
  constructor
  · rintro ⟨p, hp, hname, hhas⟩
    refine ⟨⟨p, hp, hname⟩, fun e hmeans => ?_⟩
    obtain ⟨p', hp', hname', rfl⟩ := (means_iff hplans).mp hmeans
    obtain rfl : p' = p := List.inj_on_of_nodup_map hnodup hp' hp (hname'.trans hname.symm)
    rw [← kind_of_mem_planSubjects hplans hp]
    exact Structure.hasColumn_eq_true_iff.mp hhas
  · rintro ⟨⟨p, hp, hname⟩, hshown⟩
    have hcolumn := hshown p.entity ((means_iff hplans).mpr ⟨p, hp, hname, rfl⟩)
    rw [← kind_of_mem_planSubjects hplans hp] at hcolumn
    exact ⟨p, hp, hname, Structure.hasColumn_eq_true_iff.mpr hcolumn⟩

/-- No subject has too many predicates if none but hashes have more than one. -/
theorem countFaults_eq_none_iff
    (hplans : planner.planSubjects q [] main q.subjects = .ok plans) :
    (∀ p ∈ plans, planner.countFault? q p = none) ↔
      ∀ name e, planner.Means q main name e → e.kind ≠ .hash →
        (q.predicates.filter (·.subject = name)).length ≤ 1 := by
  constructor
  · intro h name e hmeans hkind
    obtain ⟨p, hp, rfl, rfl⟩ := (means_iff hplans).mp hmeans
    rw [← kind_of_mem_planSubjects hplans hp] at hkind
    rw [← (asked_of_mem_planSubjects hplans hp).1]
    exact countFault?_eq_none_iff.mp (h p hp) hkind
  · intro h p hp
    rw [countFault?_eq_none_iff, kind_of_mem_planSubjects hplans hp,
      (asked_of_mem_planSubjects hplans hp).1]
    exact h p.name p.entity ((means_iff hplans).mpr ⟨p, hp, rfl, rfl⟩)

/-- All subjects can be answered if the structure that an alias means can answer every predicate
on it. -/
theorem answerFaults_eq_none_iff
    (hplans : planner.planSubjects q [] main q.subjects = .ok plans) :
    (∀ p ∈ plans, planner.answerFault? q p = none) ↔
      ∀ c ∈ q.predicates, ∀ e, planner.Means q main c.subject e →
        c.column = keyColumn ∨ (c.op = .eq ∧ e.kind = .hash ∧ c.column ≠ "value") := by
  constructor
  · intro h c hc e hmeans
    obtain ⟨p, hp, hname, rfl⟩ := (means_iff hplans).mp hmeans
    have hasked : c ∈ p.predicates := by
      rw [(asked_of_mem_planSubjects hplans hp).1]
      exact List.mem_filter.mpr ⟨hc, decide_eq_true hname.symm⟩
    rw [← kind_of_mem_planSubjects hplans hp]
    exact Structure.answers_eq_true_iff.mp (answerFault?_eq_none_iff.mp (h p hp) c hasked)
  · intro h p hp
    rw [answerFault?_eq_none_iff]
    intro c hasked
    rw [(asked_of_mem_planSubjects hplans hp).1] at hasked
    obtain ⟨hc, hsubject⟩ := List.mem_filter.mp hasked
    have hname : p.name = c.subject := (of_decide_eq_true hsubject).symm
    rw [Structure.answers_eq_true_iff, kind_of_mem_planSubjects hplans hp]
    exact h c hc p.entity ((means_iff hplans).mpr ⟨p, hp, hname, rfl⟩)

/-- Where subjects have plans, what is left is that the query has no fault. -/
theorem fault?_eq_none_iff_of_plans
    (hplans : planner.planSubjects q [] main q.subjects = .ok plans) :
    planner.fault? q plans = none ↔
      ((∀ c ∈ q.predicates, c.op = .glob → ∃ glob, c.value = .text glob) ∧
        ∀ c ∈ q.predicates, c.subject ∈ q.subjects.map (·.name)) ∧
      ((∀ c ∈ q.columns, c.subject ∈ q.subjects.map (·.name)) ∧
        ∀ c ∈ q.columns, ∀ e, planner.Means q main c.subject e →
          c.column = keyColumn ∨ e.kind.payloadColumn? = some c.column) ∧
      (∀ name e, planner.Means q main name e → e.kind ≠ .hash →
        (q.predicates.filter (·.subject = name)).length ≤ 1) ∧
      (∀ c ∈ q.predicates, ∀ e, planner.Means q main c.subject e →
        c.column = keyColumn ∨ (c.op = .eq ∧ e.kind = .hash ∧ c.column ≠ "value")) := by
  rw [fault?_eq_none_iff, columnFaults_eq_none_iff hplans, countFaults_eq_none_iff hplans,
    answerFaults_eq_none_iff hplans]
  refine and_congr_left' ?_
  rw [← forall₂_and]
  refine forall₂_congr fun c _ => ?_
  rw [predicateFault?_eq_none_iff, mem_names_iff hplans]

/-- **The planner accepts** exactly the queries that meet the conditions. -/
theorem exists_plan_iff : (∃ plan, planner.plan q main = .ok plan) ↔ planner.Accepts q main := by
  constructor
  · rintro ⟨plan, h⟩
    obtain ⟨hplans, hfault⟩ := plan_eq_ok_iff.mp h
    obtain ⟨⟨htexts, hpredicates⟩, ⟨hcolumns, hshown⟩, hfew, hanswered⟩ :=
      (fault?_eq_none_iff_of_plans hplans).mp hfault
    obtain ⟨hnodup, -, hentities⟩ := exists_planSubjects_iff.mp ⟨_, hplans⟩
    refine ⟨?_, hnodup, ?_, ?_, htexts, hpredicates, hcolumns, hshown, hfew, hanswered⟩
    · intro hnone
      have hlength := length_planSubjects hplans
      simp [hnone, Plan.subjects] at hlength
    · exact fun place s hs => (hentities place s hs).imp fun e he => he.1
    · rintro hstrict name e ⟨place, s, hs, -, hentity⟩
      obtain ⟨e', hentity', hknown⟩ := hentities place s hs
      obtain rfl := Option.some.inj (hentity.symm.trans hentity')
      exact Entity.unknownKind?_eq_none_iff.mp (hknown hstrict)
  · intro h
    have hentities : ∀ place s, q.subjects[place]? = some s →
        ∃ e, planner.entity? main place s = some e ∧
          (planner.strict = true → e.unknownKind? = none) := by
      intro place s hs
      obtain ⟨e, hentity⟩ := h.entities place s hs
      refine ⟨e, hentity, fun hstrict => Entity.unknownKind?_eq_none_iff.mpr ?_⟩
      exact h.words hstrict s.name e ⟨place, s, hs, rfl, hentity⟩
    obtain ⟨plans, hplans⟩ : ∃ plans, planner.planSubjects q [] main q.subjects = .ok plans :=
      exists_planSubjects_iff.mpr ⟨h.aliases, by simp, hentities⟩
    have hfault := (fault?_eq_none_iff_of_plans hplans).mpr
      ⟨⟨h.texts, h.predicates⟩, ⟨h.columns, h.shown⟩, h.few, h.answered⟩
    cases plans with
    | nil =>
        have hlength := length_planSubjects hplans
        exact absurd (List.eq_nil_of_length_eq_zero hlength.symm) h.subjects
    | cons primary others => exact ⟨⟨primary, others⟩, plan_eq_ok_iff.mpr ⟨hplans, hfault⟩⟩

end Planner

/-- How a plan groups a query. -/
structure Plan.Groups (planner : Planner) (q : Query) (main : Option Entity) (plan : Plan) :
    Prop where
  /-- The groups stand in the order of the subjects. -/
  names : plan.subjects.map (·.name) = q.subjects.map (·.name)
  /-- There is a first one. -/
  first : plan.subjects.head? = some plan.primary
  /-- Each group is for its entity, with the structure of that. -/
  entities : ∀ place p, plan.subjects[place]? = some p → ∃ s, q.subjects[place]? = some s ∧
    planner.entity? main place s = some p.entity ∧ p.kind = p.entity.kind
  /-- A group has the predicates on its alias, in the order of the query. -/
  predicates : ∀ p ∈ plan.subjects, p.predicates = q.predicates.filter (·.subject = p.name)
  /-- A group has the columns of its alias, in the order of the query. -/
  columns : ∀ p ∈ plan.subjects, p.columns = (q.columns.filter (·.subject = p.name)).map (·.column)
  /-- Every predicate is in one group. -/
  allPredicates : (plan.subjects.flatMap (·.predicates)).Perm q.predicates
  /-- Every column is in one group. -/
  allColumns : (plan.subjects.flatMap fun p => p.columns.map (ColumnRef.mk p.name)).Perm q.columns

namespace Planner

variable {planner : Planner} {q : Query} {main : Option Entity} {plan : Plan}

theorem groups_of_plan (h : planner.plan q main = .ok plan) : plan.Groups planner q main := by
  obtain ⟨hplans, hfault⟩ := plan_eq_ok_iff.mp h
  obtain ⟨⟨-, hpredicates⟩, ⟨hcolumns, -⟩, -⟩ := (fault?_eq_none_iff_of_plans hplans).mp hfault
  have hnames := names_eq_of_planSubjects hplans
  have hnodup := (names_of_planSubjects hplans).1
  have hasked : ∀ p ∈ plan.subjects, p.predicates = q.predicates.filter (·.subject = p.name) :=
    fun p hp => (asked_of_mem_planSubjects hplans hp).1
  have hshown : ∀ p ∈ plan.subjects,
      p.columns = (q.columns.filter (·.subject = p.name)).map (·.column) :=
    fun p hp => (asked_of_mem_planSubjects hplans hp).2
  refine ⟨hnames, rfl, ?_, hasked, hshown, ?_, ?_⟩
  · intro place p hp
    obtain ⟨s, hs, -, hentity, hkind⟩ := planSubjects_getElem? hplans hp
    exact ⟨s, hs, hentity, hkind⟩
  · have hgrouped := flatMap_filter_perm hnodup (hnames ▸ hpredicates)
    rw [List.flatMap_map] at hgrouped
    rw [List.flatMap_congr hasked]
    exact hgrouped
  · have hgrouped := flatMap_filter_perm hnodup (hnames ▸ hcolumns)
    rw [List.flatMap_map] at hgrouped
    convert hgrouped using 1
    refine List.flatMap_congr fun p hp => ?_
    rw [hshown p hp, List.map_map]
    -- the alias of a column in the group is that of the group
    refine List.map_congr_left (fun c hc => ?_) |>.trans (List.map_id _)
    have hsubject : c.subject = p.name := of_decide_eq_true (List.mem_filter.mp hc).2
    simp [← hsubject]

/-- **What the planner accepts, and what it returns.**  A query has a plan if and only if it meets
the conditions of `Accepts`, and a plan groups its query. -/
theorem plan_accepts (planner : Planner) (q : Query) (main : Option Entity) :
    ((∃ plan, planner.plan q main = .ok plan) ↔ planner.Accepts q main) ∧
      ∀ plan, planner.plan q main = .ok plan → plan.Groups planner q main :=
  ⟨exists_plan_iff, fun _ => groups_of_plan⟩

end Planner

end KeyedRelations
