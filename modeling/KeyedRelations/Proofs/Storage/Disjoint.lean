import Mathlib
import KeyedRelations.Proofs.Storage.Confined

/-!
# Entities that do not interfere

Two entities are disjoint if they have different structures, or different containers, or
prefixes of which neither starts with the other.  Queries on disjoint entities can change
places: each comes to the same and the trees do, whatever the store holds.

A query with one subject is confined to the territory of the subject's entity, and disjoint
entities have territories apart (`Entity.Disjoint.territory`).
-/

namespace KeyedRelations

/-- Entities whose records live apart: in different structures, in different containers, or
behind prefixes of which neither starts with the other. -/
def Entity.Disjoint (e e' : Entity) : Prop :=
  e.kind ≠ e'.kind ∨
    (e.kind ≠ .list ∧ e'.kind ≠ .list ∧ e.containerKey ≠ e'.containerKey) ∨
    (¬ e.namePrefix.toList <+: e'.namePrefix.toList ∧
      ¬ e'.namePrefix.toList <+: e.namePrefix.toList)

/-- Disjoint entities have territories apart. -/
theorem Entity.Disjoint.territory {e e' : Entity} (h : e.Disjoint e') (kind : Structure)
    (key : Key) (hown : e.territory e.kind kind key) : ¬ e'.territory e'.kind kind key := by
  rintro ⟨rfl, base', hbase', hkey'⟩
  obtain ⟨hkind, base, hbase, hkey⟩ := hown
  have hstart := (List.prefix_append base _).trans hkey
  have hstart' := (List.prefix_append base' _).trans hkey'
  obtain rfl : base' = base := Collection.base_eq_of_isPrefix hkind hbase hbase' hstart hstart'
  rcases h with hkinds | ⟨hlist, hlist', hcontainers⟩ | ⟨hapart, hapart'⟩
  · exact hkinds hkind.symm
  · exact hcontainers (Collection.container_eq_of_base hlist' hlist hbase' hbase)
  · -- the key starts with both prefixes, so one of them starts with the other
    rcases List.prefix_or_prefix_of_prefix hkey hkey' with hshort | hshort
    · exact hapart (Utf8.toList_isPrefix ((List.prefix_append_right_inj base').mp hshort))
    · exact hapart' (Utf8.toList_isPrefix ((List.prefix_append_right_inj base').mp hshort))

/-- The plan of a query with one subject is about the subject's entity. -/
theorem Planner.plan_of_single {planner : Planner} {q : Query} {main : Option Entity}
    {plan : Plan} {subject : Subject} {e : Entity} (hsubject : q.subjects = [subject])
    (hentity : main.or (planner.catalog.get? subject.entity) = some e)
    (h : planner.plan q main = .ok plan) :
    ∀ p ∈ plan.subjects, p.territory = e.territory e.kind := by
  obtain ⟨hplans, -⟩ := plan_eq_ok_iff.mp h
  rw [hsubject] at hplans
  obtain ⟨-, entity, kind, others, hsome, hkind, hrest, heq⟩ := planSubjects_cons_iff.mp hplans
  obtain rfl : e = entity := Option.some.inj (hentity.symm.trans hsome)
  obtain rfl : kind = e.kind := Entity.kind_of_kindFor hkind
  obtain rfl : [] = others := by simpa [planSubjects] using hrest
  rw [heq]
  intro p hp
  rw [List.mem_singleton.mp hp]

namespace Storage

variable {s : Storage Store} {q q' : Query}

/-- **Entities with disjoint storage do not interfere.**  Two queries with one subject each,
whatever they do and ask, whose subjects' entities are disjoint, can be executed one after the
other in either order: each answers the same result or the same error, and all trees are the
same afterwards.  The store may hold anything, and the pool may be free or not, as long as
handles can be opened. -/
theorem execute_commutes {main main' : Option Entity} {subject subject' : Subject}
    {e e' : Entity} (hopens : s.pool.Opens)
    (hsubject : q.subjects = [subject]) (hsubject' : q'.subjects = [subject'])
    (hentity : main.or (s.catalog.get? subject.entity) = some e)
    (hentity' : main'.or (s.catalog.get? subject'.entity) = some e')
    (hdisjoint : e.Disjoint e') :
    let first := s.execute Store.handler q main
    let second := first.2.execute Store.handler q' main'
    let first' := s.execute Store.handler q' main'
    let second' := first'.2.execute Store.handler q main
    first.1 = second'.1 ∧ second.1 = first'.1 ∧ second.2.store.trees = second'.2.store.trees :=
  (confined_execute fun _ hplan p hp _ _ hkey =>
      Planner.plan_of_single hsubject hentity hplan p hp ▸ hkey).commute
    (confined_execute fun _ hplan p hp _ _ hkey =>
      Planner.plan_of_single hsubject' hentity' hplan p hp ▸ hkey) hopens hdisjoint.territory

/-- A storage of two entities in one hash, with a record of the second. -/
def shelf : Storage Store :=
  new {} (Pool.ofConfig .default) .empty
    (Store.perform (.write ⟨.hash, "shelf"⟩ "discs:a" .null .always) Store.empty).2

/-- An entity on the shelf. -/
def onShelf (name : String) : Entity := (Entity.ofName name).withContainerKey "shelf"

/-- A book is inserted. -/
def insertBook : Query := (Query.onEntity .insert "books").withAssignment "b" (.int 1)

/-- All discs are deleted. -/
def deleteDiscs : Query := .onEntity .delete "discs"

theorem execute_commutes_shelf :
    shelf.pool.Opens ∧ (onShelf "books").Disjoint (onShelf "discs") ∧
      ∃ written removed,
        (shelf.execute Store.handler insertBook (some (onShelf "books"))).1 = .ok written ∧
        (shelf.execute Store.handler deleteDiscs (some (onShelf "discs"))).1 = .ok removed ∧
        ((shelf.execute Store.handler deleteDiscs (some (onShelf "discs"))).2.execute
          Store.handler insertBook (some (onShelf "books"))).1 = .ok written ∧
        ((shelf.execute Store.handler insertBook (some (onShelf "books"))).2.execute
          Store.handler deleteDiscs (some (onShelf "discs"))).1 = .ok removed := by
  have hopens : shelf.pool.Opens := fun _ => rfl
  have hprefixes : ¬ (onShelf "books").namePrefix.toList <+: (onShelf "discs").namePrefix.toList ∧
      ¬ (onShelf "discs").namePrefix.toList <+: (onShelf "books").namePrefix.toList := by
    decide
  have hdisjoint : (onShelf "books").Disjoint (onShelf "discs") := Or.inr (Or.inr hprefixes)
  obtain ⟨hfirst, hsecond, -⟩ := @execute_commutes shelf insertBook deleteDiscs
    (some (onShelf "books")) (some (onShelf "discs")) _ _ _ _ hopens rfl rfl rfl rfl hdisjoint
  have hwritten : (shelf.execute Store.handler insertBook (some (onShelf "books"))).1 =
      .ok (.ofWrite (.ofNames "books" (onShelf "books") ["books:b"])) := by
    rw [execute_fst]
    cbv
  have hremoved : (shelf.execute Store.handler deleteDiscs (some (onShelf "discs"))).1 =
      .ok (.ofWrite (.ofNames "discs" (onShelf "discs") ["discs:a"])) := by
    rw [execute_fst]
    cbv
  exact ⟨hopens, hdisjoint, _, _, hwritten, hremoved, hfirst.symm.trans hwritten,
    hsecond.trans hremoved⟩

end Storage

end KeyedRelations
