import Mathlib.Data.List.Induction
import Mathlib.Data.Set.List
import KeyedRelations.Catalog
import KeyedRelations.Proofs.Store.Contents

/-!
# The two copies of a catalog

A catalog holds its entities twice, in memory by name and in a tree by the bytes of their names.
Requests change the two copies one after the other, and a catalog that is opened later sees the tree
alone, and looks into the definitions for their names.  What keeps the copies together is that
both hold the same definitions, each under its own name (`Consistent`): every request keeps it, and
from it follows that reading the tree gives the catalog back (`Consistent.ofTree_persisted`).

What a name stands for after requests is what the last request said that said anything about it
(`standing`).
-/

namespace KeyedRelations.Catalog

/-! ### Requests -/

/-- A request to change a catalog. -/
inductive Request where
  | register (e : Entity)
  /-- Registers the entities that a text lists. -/
  | load (text : String)
  | remove (name : String)

/-- What came of a request. -/
inductive Answer where
  | registered
  | loaded (count : Nat)
  | refused (failure : Json.Failure)
  | removed (existed : Bool)

/-- Serves a request.  A text that lists no entities leaves the catalog as it is. -/
def serve (c : Catalog) : Request → Answer × Catalog
  | .register e => (.registered, c.register e)
  | .load text =>
    match c.loadJson text with
    | .ok (count, c) => (.loaded count, c)
    | .error failure => (.refused failure, c)
  | .remove name => (.removed (c.remove name).1, (c.remove name).2)

/-- Serves requests one after the other. -/
def serveAll (c : Catalog) (requests : List Request) : Catalog :=
  requests.foldl (fun c request => (c.serve request).2) c

/-- What a request says about a name, if anything: its definition, or that it has none. -/
def Request.says? (name : String) : Request → Option (Option Entity)
  | .register e => if e.name = name then some (some e) else none
  | .load text =>
    match Entity.listOfText text with
    | .ok es => (es.reverse.find? (·.name = name)).map some
    | .error _ => none
  | .remove removed => if removed = name then some none else none

/-- The definition of a name after requests: the last that says anything about it counts. -/
def standing (requests : List Request) (name : String) : Option Entity :=
  (requests.reverse.findSome? (·.says? name)).join

variable {c : Catalog}

/-- A request for all entities of a text comes down to registering them one after the other. -/
theorem serve_load (c : Catalog) (text : String) :
    (c.serve (.load text)).2 =
      match Entity.listOfText text with
      | .ok es => c.registerAll es
      | .error _ => c := by
  rw [serve, loadJson]
  cases Entity.listOfText text <;> rfl

/-- What registering and removing an entity keep, all requests keep. -/
theorem serve_induction {P : Catalog → Prop} (hregister : ∀ c e, P c → P (c.register e))
    (hremove : ∀ c name, P c → P (c.remove name).2) (h : P c) (request : Request) :
    P (c.serve request).2 := by
  cases request with
  | register e => exact hregister c e h
  | load text =>
      rw [serve_load]
      cases Entity.listOfText text with
      | ok es =>
          dsimp only
          induction es generalizing c with
          | nil => exact h
          | cons e es ih => exact ih (hregister c e h)
      | error _ => exact h
  | remove name => exact hremove c name h

/-! ### Definitions under their names -/

/-- Whether every definition is under its own name. -/
def Named (definitions : SortedMap String Entity) : Prop :=
  ∀ entry ∈ definitions.entries, entry.1 = entry.2.name

theorem named_empty : Named .empty := by simp [Named, SortedMap.empty]

namespace Named

variable {definitions : SortedMap String Entity}

theorem insert (h : Named definitions) (e : Entity) : Named (definitions.insert e.name e) := by
  intro entry hentry
  rcases SortedMap.mem_entries_insert.mp hentry with rfl | ⟨hold, -⟩
  · rfl
  · exact h entry hold

theorem erase (h : Named definitions) (name : String) : Named (definitions.erase name) :=
  fun entry hentry => h entry (SortedMap.mem_entries_erase.mp hentry).1

end Named

/-- Both copies hold the same definitions, each under its own name. -/
structure Consistent (c : Catalog) : Prop where
  named : Named c.cached
  stored : ∀ entry, entry ∈ c.persisted.entries ↔
    ∃ e, (e.name, e) ∈ c.cached.entries ∧ entry = (Utf8.bytes e.name, .intact e)

theorem consistent_empty : empty.Consistent where
  named := named_empty
  stored := by simp [empty, SortedMap.empty]

namespace Consistent

theorem register (h : c.Consistent) (e : Entity) : (c.register e).Consistent where
  named := h.named.insert e
  stored := by
    intro entry
    rw [Catalog.register, SortedMap.mem_entries_insert, h.stored]
    simp only [SortedMap.mem_entries_insert]
    constructor
    · rintro (rfl | ⟨⟨e', he', rfl⟩, hne⟩)
      · exact ⟨e, Or.inl rfl, rfl⟩
      · have hname : e'.name ≠ e.name := fun heq => hne (congrArg Utf8.bytes heq)
        exact ⟨e', Or.inr ⟨he', hname⟩, rfl⟩
    · rintro ⟨e', heq | ⟨he', hname⟩, rfl⟩
      · obtain rfl : e' = e := congrArg Prod.snd heq
        exact Or.inl rfl
      · exact Or.inr ⟨⟨e', he', rfl⟩, fun heq => hname (Utf8.bytes_injective heq)⟩

theorem remove (h : c.Consistent) (name : String) : (c.remove name).2.Consistent where
  named := h.named.erase name
  stored := by
    intro entry
    rw [Catalog.remove, SortedMap.mem_entries_erase, h.stored]
    simp only [SortedMap.mem_entries_erase]
    constructor
    · rintro ⟨⟨e, he, rfl⟩, hne⟩
      exact ⟨e, ⟨he, fun heq => hne (congrArg Utf8.bytes heq)⟩, rfl⟩
    · rintro ⟨e, ⟨he, hname⟩, rfl⟩
      exact ⟨⟨e, he, rfl⟩, fun heq => hname (Utf8.bytes_injective heq)⟩

/-- **Every request keeps the copies together.** -/
theorem serve (h : c.Consistent) (request : Request) : (c.serve request).2.Consistent :=
  serve_induction (fun _ e h => h.register e) (fun _ name h => h.remove name) h request

theorem serveAll (h : c.Consistent) (requests : List Request) :
    (c.serveAll requests).Consistent := by
  induction requests generalizing c with
  | nil => exact h
  | cons request rest ih => exact ih (h.serve request)

end Consistent

/-! ### Opening the tree again -/

/-- Intact definitions are all read, a later one over an earlier of the same name. -/
theorem readDefinitions_intact (cached : SortedMap String Entity) (es : List Entity) :
    readDefinitions cached (es.map .intact) =
      .ok (es.foldl (fun cached e => cached.insert e.name e) cached) := by
  induction es generalizing cached with
  | nil => rfl
  | cons e es ih => exact ih _

/-- **The tree holds the whole catalog**: opened anew, it gives the catalog back. -/
theorem Consistent.ofTree_persisted (h : c.Consistent) : ofTree c.persisted = .ok c := by
  obtain ⟨es, hes⟩ : c.persisted.entries ∈
      Set.range (List.map fun e : Entity => (Utf8.bytes e.name, Stored.intact e)) := by
    rw [Set.range_list_map]
    intro entry hentry
    obtain ⟨e, -, rfl⟩ := (h.stored entry).mp hentry
    exact ⟨e, rfl⟩
  have hnames : ((es.map fun e => (e.name, e)).map (·.1)).Nodup := by
    have hkeys := c.persisted.nodup_keys
    rw [SortedMap.keys, ← hes, List.map_map] at hkeys
    refine List.Nodup.of_map Utf8.bytes ?_
    simpa [Function.comp_def] using hkeys
  have hmem : ∀ e, e ∈ es ↔ (e.name, e) ∈ c.cached.entries := by
    intro e
    have hstored := h.stored (Utf8.bytes e.name, .intact e)
    rw [← hes, List.mem_map] at hstored
    simpa using hstored
  have hcached : SortedMap.ofList (es.map fun e => (e.name, e)) = c.cached := by
    refine SortedMap.ext (SortedMap.eq_of_ascending (SortedMap.ascending _) c.cached.ascending ?_)
    rintro ⟨name, e⟩
    rw [SortedMap.mem_entries_ofList hnames, List.mem_map]
    constructor
    · rintro ⟨e, he, heq⟩
      exact heq ▸ (hmem e).mp he
    · intro hentry
      obtain rfl : name = e.name := h.named _ hentry
      exact ⟨e, (hmem e).mpr hentry, rfl⟩
  have hvalues : c.persisted.values = es.map .intact := by
    rw [SortedMap.values, ← hes, List.map_map]
    rfl
  rw [SortedMap.ofList, List.foldl_map] at hcached
  rw [ofTree, hvalues, readDefinitions_intact, hcached]
  rfl

/-! ### What names stand for -/

theorem get?_register (c : Catalog) (e : Entity) (name : String) :
    (c.register e).get? name = if e.name = name then some e else c.get? name := by
  split
  next heq => rw [← heq]; exact SortedMap.get?_insert_self _ _ _
  next hne => exact SortedMap.get?_insert_of_ne _ _ (Ne.symm hne)

/-- Of several definitions of a name the last counts. -/
theorem get?_registerAll (c : Catalog) (es : List Entity) (name : String) :
    (c.registerAll es).get? name = (es.reverse.find? (·.name = name)).or (c.get? name) := by
  induction es generalizing c with
  | nil => rfl
  | cons e es ih =>
      have hrest : (c.registerAll (e :: es)).get? name = _ := ih (c.register e)
      rw [hrest, get?_register, List.reverse_cons, List.find?_append, Option.or_assoc]
      by_cases hname : e.name = name <;> simp [hname]

theorem get?_remove (c : Catalog) (removed name : String) :
    (c.remove removed).2.get? name = if removed = name then none else c.get? name := by
  split
  next heq => rw [← heq]; exact SortedMap.get?_erase_self _ _
  next hne => exact SortedMap.get?_erase_of_ne _ (Ne.symm hne)

/-- A request decides about the names that it says something about, and about no others. -/
theorem get?_serve (c : Catalog) (request : Request) (name : String) :
    (c.serve request).2.get? name = (request.says? name).getD (c.get? name) := by
  cases request with
  | register e =>
      rw [serve, get?_register, Request.says?]
      split <;> rfl
  | load text =>
      rw [serve_load, Request.says?]
      cases Entity.listOfText text with
      | ok es =>
          simp only [get?_registerAll]
          cases es.reverse.find? (·.name = name) <;> rfl
      | error _ => rfl
  | remove removed =>
      rw [serve, get?_remove, Request.says?]
      split <;> rfl

theorem get?_serveAll (requests : List Request) (name : String) :
    (empty.serveAll requests).get? name = standing requests name := by
  induction requests using List.reverseRecOn with
  | nil => rfl
  | append_singleton requests request ih =>
      have hlast : empty.serveAll (requests ++ [request]) =
          ((empty.serveAll requests).serve request).2 := by
        rw [serveAll, List.foldl_concat]
        rfl
      rw [hlast, get?_serve, ih, standing, standing, List.reverse_concat, List.findSome?_cons]
      cases request.says? name <;> rfl

/-! ### The catalog after requests -/

/-- **What a catalog is after requests** that were made to an empty one. -/
structure Follows (c : Catalog) (requests : List Request) : Prop where
  /-- Opened anew it is the same: every name finds the same, and the same names are listed. -/
  reopened : ofTree c.persisted = .ok c
  /-- The names are listed in strictly ascending order. -/
  ascending : c.names.Pairwise (· < ·)
  /-- In memory every definition is under its own name. -/
  cached : ∀ entry ∈ c.cached.entries, entry.1 = entry.2.name
  /-- So it is in the tree. -/
  stored : ∀ entry ∈ c.persisted.entries, ∃ e : Entity, entry = (Utf8.bytes e.name, .intact e)
  /-- A name finds its last definition, unless it has been removed after that. -/
  found : ∀ name, c.get? name = standing requests name
  /-- The names that are listed are those that have a definition. -/
  listed : ∀ name, name ∈ c.names ↔ (standing requests name).isSome
  /-- Removing a name answers whether it had a definition. -/
  removed : ∀ name, (c.serve (.remove name)).1 = .removed (standing requests name).isSome
  /-- A text that cannot be loaded changes neither copy. -/
  refused : ∀ text failure, (c.serve (.load text)).1 = .refused failure →
    (c.serve (.load text)).2 = c

/-- **The two copies of a catalog agree.**  A tree without definitions opens as a catalog, and
after whatever requests the catalog is what they say. -/
theorem exists_follows :
    ∃ c, ofTree .empty = .ok c ∧ ∀ requests, (c.serveAll requests).Follows requests := by
  refine ⟨empty, rfl, fun requests => ?_⟩
  have h := consistent_empty.serveAll requests
  refine ⟨h.ofTree_persisted, List.pairwise_map.mpr (SortedMap.ascending _), h.named, ?_,
    get?_serveAll requests, ?_, ?_, ?_⟩
  · intro entry hentry
    obtain ⟨e, -, rfl⟩ := (h.stored entry).mp hentry
    exact ⟨e, rfl⟩
  · intro name
    rw [← get?_serveAll]
    exact SortedMap.mem_keys_iff
  · intro name
    rw [← get?_serveAll]
    rfl
  · intro text failure hrefused
    rw [serve] at hrefused ⊢
    cases hload : (empty.serveAll requests).loadJson text with
    | ok loaded => simp [hload] at hrefused
    | error _ => rfl

end KeyedRelations.Catalog
