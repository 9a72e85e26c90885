import Mathlib
import KeyedRelations.Proofs.Assembly
import KeyedRelations.Proofs.Storage.Atomicity

/-!
# What a query that reads shows

A query that reads answers a block for each of its subjects, in their order, with the columns
that it asks for.  However the subjects are read, what a block is made of is what the subject's
selection has found, and that is genuine over the trees at the beginning, since reading leaves
them as they are (`Storage.select_eq_ok`).  What the block shows follows from that alone
(`Block.shows_ofRecords`).
-/

namespace KeyedRelations

/-- The columns that a query shows of an alias: those that it asks for, in their order, or all
that the structure has. -/
def Query.shownColumns (q : Query) (name : String) (kind : Structure) : List String :=
  let asked := (q.columns.filter (·.subject = name)).map (·.column)
  if asked.isEmpty then keyColumn :: kind.payloadColumn?.toList else asked

/-- A block is made of genuine records of a subject. -/
def SubjectPlan.MadeOf (t : Trees) (p : SubjectPlan) (b : Block) : Prop :=
  ∃ found : Records p.kind, Genuine p.collection t p.Names found ∧
    (Block.ofRecords p.name p.entity found).project p.columns = .ok b

namespace Storage

variable {s s' : Storage Store} {q : Query} {main : Option Entity} {result : QueryResult}
  {p : SubjectPlan} {block : Block} {blocks : List Block} {plan : Plan}

/-- A subject that is read is shown by what its selection has found. -/
theorem madeOf_of_readSubject (h : (s.readSubject Store.handler q p).1 = .ok block) :
    p.MadeOf s.store.trees block := by
  obtain ⟨found, hfound, hproject⟩ := exists_found_of_readSubject h
  have hgenuine := p.select_ensures s.store.trees s.config.pageSize s.store.cursors found _
    (Prod.ext hfound rfl)
  exact ⟨found, hgenuine, hproject⟩

/-- **What is selected is made of genuine records**, one block for each subject. -/
theorem select_eq_ok (h : (s.select Store.handler q plan).1 = .ok result) :
    List.Forall₂ (SubjectPlan.MadeOf s.store.trees) plan.subjects result.blocks := by
  have hkeep : ∀ (p : SubjectPlan) (s₁ : Storage Store), s₁.store.trees = s.store.trees →
      (s₁.readSubject Store.handler q p).2.store.trees = s.store.trees :=
    fun p s₁ htrees => (readSubject_trees q p s₁).trans htrees
  refine (readFor_of_select hkeep rfl h).imp ?_
  rintro p block ⟨s₁, htrees, hread⟩
  exact htrees ▸ madeOf_of_readSubject hread

/-- A block that is made of a subject's records shows the subject's columns of them. -/
theorem shows_of_madeOf {st : Store} (hkind : p.kind = p.entity.kind)
    (hcolumns : p.columns = (q.columns.filter (·.subject = p.name)).map (·.column))
    (h : p.MadeOf st.trees block) :
    block.subject = p.name ∧ block.Shows p.entity st ∧
      block.columns.map (·.name) = q.shownColumns p.name p.entity.kind := by
  obtain ⟨name, entity, kind, predicates, columns⟩ := p
  obtain rfl : kind = entity.kind := hkind
  obtain ⟨found, hgenuine, hproject⟩ := h
  obtain ⟨hsubject, -, hnames, -⟩ := Block.project_eq_ok hproject
  refine ⟨hsubject, (Block.shows_ofRecords hgenuine name).project hproject, ?_⟩
  rw [hnames, Block.names_ofRecords, hcolumns, Query.shownColumns]

/-- The block in a place is for the subject there and its entity. -/
theorem shows_of_place (hplan : s.planner.plan q main = .ok plan)
    (hmade : List.Forall₂ (SubjectPlan.MadeOf s.store.trees) plan.subjects blocks)
    {place : Nat} {subject : Subject} (hsubject : q.subjects[place]? = some subject)
    (hblock : blocks[place]? = some block) :
    ∃ e, s.planner.entity? main place subject = some e ∧ block.subject = subject.name ∧
      block.Shows e s.store ∧
      block.columns.map (·.name) = q.shownColumns subject.name e.kind := by
  obtain ⟨hplans, -⟩ := Planner.plan_eq_ok_iff.mp hplan
  obtain ⟨hlength, hall⟩ := List.forall₂_iff_get.mp hmade
  obtain ⟨hbound, rfl⟩ := List.getElem?_eq_some_iff.mp hblock
  have hplace : place < plan.subjects.length := by omega
  have hp := List.getElem?_eq_getElem hplace
  obtain ⟨subject', hsubject', hname, hentity, hkind⟩ := Planner.planSubjects_getElem? hplans hp
  obtain rfl : subject' = subject := Option.some.inj (hsubject'.symm.trans hsubject)
  have hasked := Planner.asked_of_mem_planSubjects hplans (List.mem_of_getElem? hp)
  obtain ⟨halias, hshows, hcolumns⟩ :=
    shows_of_madeOf (q := q) hkind hasked.2 (hall place hplace hbound)
  rw [hname] at halias hcolumns
  exact ⟨_, hentity, halias, hshows, hcolumns⟩

/-- **What a query that reads shows.**  If it succeeds, on whatever store, it answers a block for
each of its subjects, in their order and under their aliases.  A block has the columns that the
query asks of the alias, in their order and as often as it asks for them, or else all columns of
the entity's structure.  Every column has a value for each key, so that all rows can be read off;
no key stands twice; the values of a `key` column are the full names of the keys in their rows,
and those of a payload column what the records of the keys hold.  So looking up a key in a column
finds the value in its row. -/
theorem execute_shows (haction : q.resolvedAction? = some .select)
    (h : s.execute Store.handler q main = (.ok result, s')) :
    result.blocks.map (·.subject) = q.subjects.map (·.name) ∧
      ∀ (place : Nat) (subject : Subject) (block : Block),
        q.subjects[place]? = some subject → result.blocks[place]? = some block →
        ∃ e, s.planner.entity? main place subject = some e ∧
          block.columns.map (·.name) = q.shownColumns subject.name e.kind ∧
          block.Shows e s.store ∧
          (∃ rows, block.rows? = some rows ∧ rows.map (·.1) = block.keys ∧
            ∀ row ∈ rows, row.2.map (·.1) = block.columns.map (·.name)) ∧
          ∀ (row : Nat) (hrow : row < block.keys.length), ∀ c ∈ block.columns,
            ∃ v, c.values[row]? = some v ∧
              block.lookup? block.keys[row] c.name = some v := by
  have hdispatch : (s.dispatch Store.handler q main).1 = .ok result := by
    rw [← execute_fst, h]
  cases hplan : s.planner.plan q main with
  | error e => simp [dispatch, haction, hplan] at hdispatch
  | ok plan =>
      rw [dispatch_of_plan haction hplan, if_neg (by decide)] at hdispatch
      obtain ⟨hplans, -⟩ := Planner.plan_eq_ok_iff.mp hplan
      have hmade := select_eq_ok hdispatch
      have hlength : result.blocks.length = q.subjects.length :=
        hmade.length_eq.symm.trans (Planner.length_planSubjects hplans)
      constructor
      · refine List.ext_getElem (by simpa using hlength) fun place hplace hplace' => ?_
        rw [List.length_map] at hplace hplace'
        obtain ⟨e, -, halias, -⟩ := shows_of_place hplan hmade
          (List.getElem?_eq_getElem hplace') (List.getElem?_eq_getElem hplace)
        rw [List.getElem_map, List.getElem_map]
        exact halias
      · intro place subject block hsubject hblock
        obtain ⟨e, hentity, -, hshows, hcolumns⟩ := shows_of_place hplan hmade hsubject hblock
        refine ⟨e, hentity, hcolumns, hshows, hshows.exists_rows, ?_⟩
        intro row hrow c hc
        have hvalue : row < c.values.length := by
          have heven := hshows.even c hc
          omega
        exact ⟨_, List.getElem?_eq_getElem hvalue, (hshows.lookup?_eq hc hrow).trans
          (List.getElem?_eq_getElem hvalue)⟩

/-- Stars, whose names start with a star. -/
def stars : Entity := (Entity.ofName "stars").withKeyPrefix "*"

/-- A storage with the star of the key `*`, and something else beside it. -/
def starry : Storage Store :=
  new {} (Pool.ofConfig .default) (Catalog.empty.registerAll [stars])
    (Store.perform (.write ⟨.hash, "stars"⟩ "**" (.int 1) .always)
      (Store.perform (.write ⟨.hash, "stars"⟩ "x" (.int 2) .always) Store.empty).2).2

/-- All stars: what they hold, their names, and what they hold. -/
def allStars : Query :=
  (((Query.ofAction "select").join "s" "stars").withColumn "s" "value").withColumn "s" "key"
    |>.withColumn "s" "value"

theorem execute_shows_starry :
    ∃ block s', starry.execute Store.handler allStars none = (.ok (.ofRead [block]), s') ∧
      block.subject = "s" ∧ block.columns.map (·.name) = ["value", "key", "value"] ∧
      block.keys = ["*"] ∧ ∃ v, block.lookup? "*" "value" = some v := by
  have haction : allStars.resolvedAction? = some .select := by cbv
  have hkeys : (starry.execute Store.handler allStars none).1.map
      (fun r => (r.blocks.map (·.keys), r.affected)) = .ok ([["*"]], 0) := by
    rw [execute_fst]
    cbv
  rcases hexecute : starry.execute Store.handler allStars none with ⟨⟨e⟩ | ⟨result⟩, s'⟩
  · rw [hexecute] at hkeys
    cases hkeys
  · obtain ⟨haliases, hshows⟩ := execute_shows haction hexecute
    obtain ⟨blocks, affected⟩ := result
    rw [hexecute] at hkeys
    obtain ⟨hkeys, rfl⟩ := Prod.mk.inj (Except.ok.inj hkeys)
    obtain ⟨block, rfl⟩ : ∃ block, blocks = [block] :=
      List.length_eq_one_iff.mp (by simpa using congrArg List.length hkeys)
    have hkey : block.keys = ["*"] := by simpa using hkeys
    have halias : block.subject = "s" := (List.cons.inj (haliases.trans (by cbv : _ = ["s"]))).1
    obtain ⟨e, hentity, hcolumns, -, -, hlookup⟩ := hshows 0 ⟨"s", "stars"⟩ block rfl rfl
    obtain rfl : e = stars := (Option.some.inj (hentity.symm.trans (by cbv)))
    have hnames : block.columns.map (·.name) = ["value", "key", "value"] :=
      hcolumns.trans (by cbv)
    obtain ⟨c, hc, hname⟩ := List.mem_map.mp (hnames ▸ List.mem_cons_self (a := "value"))
    obtain ⟨v, -, hv⟩ := hlookup 0 (by simp [hkey]) c hc
    refine ⟨block, s', rfl, halias, hnames, hkey, v, ?_⟩
    simpa [hkey, hname] using hv

end Storage

end KeyedRelations
