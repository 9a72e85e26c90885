import KeyedRelations.Console
import KeyedRelations.Proofs.Catalog
import KeyedRelations.Proofs.Entity.Json

/-!
# The listing of a catalog

The entities that a console lists as JSON are a text that a catalog can load: loaded into an empty
catalog, it gives one in which every name finds what it found before.  The names that are listed are
those in the definitions, since a catalog has every definition under its own name, however it came
about (`Reached.named`).
-/

namespace KeyedRelations

namespace Catalog

/-- The catalogs that come about: they are opened over any tree and changed by any requests. -/
inductive Reached : Catalog → Prop
  | opened {tree : DefinitionTree} {c : Catalog} (h : ofTree tree = .ok c) : Reached c
  | served {c : Catalog} (h : Reached c) (request : Request) : Reached (c.serve request).2

variable {c : Catalog}

/-- Definitions that are read are put under their own names. -/
theorem Named.readDefinitions {stored : List (Stored Entity)}
    {cached cached' : SortedMap String Entity} (h : Named cached)
    (hread : readDefinitions cached stored = .ok cached') : Named cached' := by
  induction stored generalizing cached with
  | nil =>
      obtain rfl : cached = cached' := Except.ok.inj hread
      exact h
  | cons definition rest ih =>
      cases definition with
      | intact e => exact ih (h.insert e) hread
      | damaged _ => cases hread

/-- **Every definition is under its own name**, whatever lay in the tree. -/
theorem Reached.named (h : c.Reached) : Named c.cached := by
  induction h with
  | @opened tree c h =>
      rw [ofTree] at h
      cases hread : Catalog.readDefinitions .empty tree.values with
      | error e => simp [hread, Except.map] at h
      | ok cached =>
          rw [hread] at h
          obtain rfl : ⟨tree, cached⟩ = c := Except.ok.inj h
          exact named_empty.readDefinitions hread
  | served _ request ih =>
      exact serve_induction (P := fun c => Named c.cached) (fun _ e h => h.insert e)
        (fun _ name h => h.erase name) ih request

theorem entities_eq (c : Catalog) : c.entities = c.cached.values :=
  SortedMap.filterMap_get?_keys c.cached

theorem cached_registerAll (c : Catalog) (es : List Entity) :
    (c.registerAll es).cached = es.foldl (fun cached e => cached.insert e.name e) c.cached := by
  induction es generalizing c with
  | nil => rfl
  | cons e es ih => exact ih (c.register e)

/-- Registering the entities of a catalog in an empty one gives the same definitions. -/
theorem cached_registerAll_entities (h : Named c.cached) :
    (empty.registerAll c.entities).cached = c.cached := by
  have hentries : c.cached.values.map (fun e => (e.name, e)) = c.cached.entries := by
    rw [SortedMap.values, List.map_map]
    refine (List.map_congr_left fun entry hentry => ?_).trans (List.map_id _)
    exact Prod.ext (h entry hentry).symm rfl
  have hlist := SortedMap.ofList_entries c.cached
  rw [← hentries, SortedMap.ofList, List.foldl_map] at hlist
  rw [cached_registerAll, entities_eq]
  exact hlist

end Catalog

/-- **What a console lists can be loaded.**  The text that lists the entities as JSON is loaded by
an empty catalog, which then has as many names as were listed, and every name finds there what it
found before. -/
theorem Console.loadJson_entities {c : Console} (hformat : c.format = .json)
    (hreached : c.storage.catalog.Reached) :
    ∃ loaded, Catalog.empty.loadJson c.entities = .ok (c.storage.catalog.names.length, loaded) ∧
      loaded.names = c.storage.catalog.names ∧
      ∀ name, loaded.get? name = c.storage.catalog.get? name := by
  have htext : c.entities = Entity.listToText c.storage.catalog.entities := by
    rw [entities, hformat]
    rfl
  have hcached := Catalog.cached_registerAll_entities hreached.named
  have hlength : c.storage.catalog.entities.length = c.storage.catalog.names.length := by
    rw [Catalog.entities_eq, SortedMap.values, List.length_map]
    exact (List.length_map _).symm
  refine ⟨Catalog.empty.registerAll c.storage.catalog.entities, ?_, ?_, ?_⟩
  · rw [htext, Catalog.loadJson, Entity.listOfText_listToText, Except.map, hlength]
  · rw [Catalog.names, hcached]
    rfl
  · intro name
    rw [Catalog.get?, hcached]
    rfl

/-- An entity with a quote and a line feed in its name, and without a prefix. -/
def crooked : Entity :=
  ((Entity.ofName "a\"\n").withKeyPrefix "").withOption "kv" "type" "set"

/-- A console whose catalog has an entity with an empty prefix and one with none. -/
def onCrooked : Console where
  storage := .new {} (Pool.ofConfig .default)
    ((Catalog.empty.register crooked).register (.ofName "notes")) .empty
  format := .json

theorem Console.loadJson_entities_onCrooked :
    onCrooked.format = .json ∧ onCrooked.storage.catalog.Reached ∧
      ∃ loaded, Catalog.empty.loadJson onCrooked.entities = .ok (2, loaded) ∧
        loaded.names = ["a\"\n", "notes"] ∧ loaded.get? "a\"\n" = some crooked := by
  have hempty : Catalog.ofTree .empty = .ok .empty := rfl
  have hreached : onCrooked.storage.catalog.Reached :=
    .served (.served (.opened hempty) (.register crooked)) (.register (.ofName "notes"))
  obtain ⟨loaded, hload, hnames, hget⟩ := Console.loadJson_entities rfl hreached
  refine ⟨rfl, hreached, loaded, hload, hnames, ?_⟩
  rw [hget]
  decide +kernel

end KeyedRelations
