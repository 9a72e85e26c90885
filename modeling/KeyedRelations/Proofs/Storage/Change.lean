import Mathlib
import KeyedRelations.Proofs.Entity
import KeyedRelations.Proofs.Mutation
import KeyedRelations.Proofs.Storage.Execution

/-!
# Updating and deleting act on what selecting shows

An update or a deletion answers the keys of the records that it changed.  They are the keys
that a query for the same subject with the same predicates would have shown on the store
before, in the same order, since both run one selection on one store.
-/

namespace KeyedRelations

/-- **What a write does to the records of natural keys.** -/
structure SubjectPlan.ActsOn (p : SubjectPlan) (keys : List String)
    (held : Option p.kind.Payload) (before after : Store) : Prop where
  /-- The keys are different. -/
  nodup : keys.Nodup
  /-- Their records existed. -/
  existed : ∀ key ∈ keys, ∃ payload,
    before.read p.collection (p.entity.recordName key) = .ok (some payload)
  /-- Now they hold one payload, or are gone. -/
  done : ∀ key ∈ keys, after.read p.collection (p.entity.recordName key) = .ok held
  /-- No tree has an entry that it did not have. -/
  created : ∀ kind key, (after.trees.tree kind).contains key = true →
    (before.trees.tree kind).contains key = true
  /-- No entry of another record is different, in whichever tree. -/
  others : ∀ kind key,
    (kind = p.kind → ∀ k ∈ keys, p.collection.keyOf (p.entity.recordName k) ≠ .ok key) →
    (after.trees.tree kind).get? key = (before.trees.tree kind).get? key
  /-- Other structures and other containers are as before. -/
  elsewhere : ∀ c : Collection, c.kind ≠ p.kind ∨ c.base ≠ p.collection.base →
    ∀ name, after.read c name = before.read c name

/-- Changing genuine records is acting on their natural keys. -/
theorem SubjectPlan.actsOn_of_changed {p : SubjectPlan} {found : Records p.kind}
    {held : Option p.kind.Payload} {before after : Store}
    (hgenuine : Genuine p.collection before.trees p.Names found)
    (hchanged : p.collection.Changed found.names held before after) :
    p.ActsOn (found.names.map p.entity.naturalKey) held before after := by
  have hnames := hgenuine.recordName_naturalKey
  have hmem : ∀ key ∈ found.names.map p.entity.naturalKey,
      p.entity.recordName key ∈ found.names := fun key hkey =>
    hnames ▸ List.mem_map_of_mem hkey
  have hstored : ∀ name ∈ found.names, ∃ payload,
      before.read p.collection name = .ok (some payload) := by
    intro name hname
    obtain ⟨r, hr, rfl⟩ := List.mem_map.mp hname
    exact ⟨r.2, Collection.mem_records_iff.mp (hgenuine.stored r hr)⟩
  refine ⟨hgenuine.nodup_keys, fun key hkey => hstored _ (hmem key hkey),
    fun key hkey => hchanged.done _ (hmem key hkey),
    fun kind key => hchanged.contains hstored, fun kind key hother => ?_,
    fun c hother => hchanged.read_elsewhere hother⟩
  refine hchanged.frame kind key fun hkind name hname hkey => ?_
  rw [← hnames] at hname
  obtain ⟨k, hk, rfl⟩ := List.mem_map.mp hname
  exact hother hkind k hk hkey

namespace Storage

variable {s s' : Storage Store} {q : Query} {main : Option Entity} {action : Action}
  {result : QueryResult}

/-- Reading a plan of one subject shows what its selection finds. -/
theorem select_of_single {p : SubjectPlan} (hp : p.Answerable) {handle : HandleId} {pool : Pool}
    (hacquire : s.pool.acquire = (.ok handle, pool)) {found : Records p.kind} {st : Store}
    (hselect : (p.select s.config.pageSize).run Store.handler s.store = (.ok found, st)) :
    ∃ block, (s.select Store.handler q ⟨p, []⟩).1 = .ok (.ofRead [block]) ∧
      block.subject = p.name ∧ block.keys = found.names.map p.entity.naturalKey := by
  obtain ⟨block, s₁, hread, hsubject, hkeys⟩ := readSubject_of_select (q := q) hp hacquire hselect
  refine ⟨block, ?_, hsubject, hkeys⟩
  simp [select, Plan.subjects, readInTurn, hread, Except.map]

/-- **Updating and deleting act on what selecting shows.**  If an update or a deletion
succeeds, then every query for the same subject with the same predicates, whatever columns
of the structure it asks for, shows the affected keys in their order if it is asked before.
Afterwards the records of these keys hold what the one assignment gives to the structure, or
are gone.  They existed before, and nothing else is different in any tree. -/
theorem execute_acts_on_selected (haction : q.resolvedAction? = some action)
    (hchanging : action = .update ∨ action = .delete)
    (h : s.execute Store.handler q main = (.ok result, s')) :
    ∃ p block held, s.planner.plan q main = .ok ⟨p, []⟩ ∧ result = .ofWrite block ∧
      (∀ q' : Query, q'.resolvedAction? = some .select → q'.subjects = q.subjects →
        q'.predicates = q.predicates →
        (∀ c ∈ q'.columns, p.name = c.subject ∧ p.kind.hasColumn c.column = true) →
        ∃ shown, (s.execute Store.handler q' main).1 = .ok (.ofRead [shown]) ∧
          shown.subject = block.subject ∧ shown.keys = block.keys) ∧
      p.Leaves q.assignments action held ∧ p.ActsOn block.keys held s.store s'.store := by
  obtain ⟨hdispatch, hstore⟩ : (s.dispatch Store.handler q main).1 = .ok result ∧
      (s.dispatch Store.handler q main).2.store = s'.store := by
    rw [← execute_fst, ← execute_store, h]
    exact ⟨rfl, rfl⟩
  cases hplan : s.planner.plan q main with
  | error e => simp [dispatch, haction, hplan] at hdispatch
  | ok plan =>
      have hwrites : action.isWrite = true := by rcases hchanging with rfl | rfl <;> rfl
      rw [dispatch_of_plan haction hplan, if_pos hwrites] at hdispatch hstore
      obtain ⟨honly, ⟨handle, pool, hacquire⟩, program, names, hprogram, hrun, rfl⟩ :=
        write_eq_ok (Prod.ext hdispatch rfl)
      obtain ⟨p, others⟩ := plan
      obtain rfl : others = [] := honly
      obtain ⟨found, between, held, hselect, hgenuine, rfl, hchanged, hleaves⟩ :=
        SubjectPlan.mutation_changed hchanging hprogram hrun
      rw [hstore] at hchanged
      refine ⟨p, _, held, rfl, rfl, ?_, hleaves, SubjectPlan.actsOn_of_changed hgenuine hchanged⟩
      intro q' haction' hsubjects hpredicates hcolumns
      have hplan' := Planner.plan_showing hplan hsubjects hpredicates fun c hc =>
        ⟨p, List.mem_cons_self, hcolumns c hc⟩
      have hselect' : ((p.showing q'.columns).select s.config.pageSize).run Store.handler s.store =
          (.ok found, between) := by
        rw [SubjectPlan.select_showing]
        exact hselect
      obtain ⟨block, hshown, hsubject, hkeys⟩ := select_of_single (q := q')
        (Planner.answerable_of_plan hplan' List.mem_cons_self) hacquire hselect'
      refine ⟨block, ?_, hsubject, hkeys⟩
      rw [execute_fst, dispatch_of_plan haction' hplan', if_neg (by decide)]
      exact hshown

/-- A storage of a hash with two notes. -/
def twoNotes : Storage Store :=
  new {} (Pool.ofConfig .default) .empty
    (Store.perform (.write ⟨.hash, "notes"⟩ "notes:b" .null .always)
      (Store.perform (.write ⟨.hash, "notes"⟩ "notes:a" .null .always) Store.empty).2).2

/-- A query about the notes whose keys start with an `a`. -/
def someNotes (action : String) : Query :=
  ((Query.ofAction action).join "notes" "notes").whereMatch "notes" "a*"

theorem execute_acts_on_selected_twoNotes :
    ∃ s', twoNotes.execute Store.handler
        ((someNotes "update").withAssignment "value" (.text "x")) (some (.ofName "notes")) =
        (.ok (.ofWrite (.ofNames "notes" (.ofName "notes") ["notes:a"])), s') ∧
      (∃ shown, (twoNotes.execute Store.handler (someNotes "select")
        (some (.ofName "notes"))).1 = .ok (.ofRead [shown]) ∧ shown.keys = ["a"]) ∧
      s'.store.read ⟨.hash, "notes"⟩ "notes:a" = .ok (some (.text "x")) ∧
      s'.store.read ⟨.set, "notes"⟩ "notes:b" = .ok none := by
  have hok : (twoNotes.execute Store.handler
      ((someNotes "update").withAssignment "value" (.text "x")) (some (.ofName "notes"))).1 =
      .ok (.ofWrite (.ofNames "notes" (.ofName "notes") ["notes:a"])) := by
    rw [execute_fst]
    cbv
  have hexecute := Prod.fst_eq_iff.mp hok
  have hplan' : twoNotes.planner.plan
      ((someNotes "update").withAssignment "value" (.text "x")) (some (.ofName "notes")) =
      .ok ⟨⟨"notes", .ofName "notes", .hash, (someNotes "update").predicates, []⟩, []⟩ := by cbv
  have haction : ((someNotes "update").withAssignment "value" (.text "x")).resolvedAction? =
      some .update := by cbv
  obtain ⟨p, block, held, hplan, hresult, hshown, hleaves, hacts⟩ :=
    execute_acts_on_selected haction (Or.inl rfl) hexecute
  rw [hplan'] at hplan
  obtain rfl : _ = p := by simpa using hplan
  simp only [QueryResult.ofWrite, QueryResult.mk.injEq, List.cons.injEq, and_true] at hresult
  obtain ⟨rfl, -⟩ := hresult
  have hkeys : (Block.ofNames "notes" (.ofName "notes") ["notes:a"]).keys = ["a"] := by cbv
  rw [hkeys] at hshown hacts
  have haction' : (someNotes "select").resolvedAction? = some .select := by cbv
  refine ⟨_, hexecute, ?_, ?_, ?_⟩
  · obtain ⟨shown, hselect, -, hkeys'⟩ := hshown (someNotes "select") haction' rfl rfl
      (fun c hc => absurd hc List.not_mem_nil)
    exact ⟨shown, hselect, hkeys'⟩
  · cases hleaves with
    | update hone hcolumn hpayload =>
        cases hone
        cases hpayload
        exact hacts.done "a" List.mem_cons_self
  · rw [hacts.elsewhere ⟨.set, "notes"⟩ (Or.inl (by decide)) "notes:b"]
    cbv

end Storage

end KeyedRelations
