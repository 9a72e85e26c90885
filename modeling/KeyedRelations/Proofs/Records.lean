import KeyedRelations.Proofs.Scan.Stored
import KeyedRelations.Records

/-!
# First finds

What is read twice under one name is kept as it was read first, whether it came twice in the
pages of a scan or was found by several predicates.  `firsts` says so of a list.  Collecting the
items of pages and joining records that have each name once are both described by it.
-/

namespace KeyedRelations

section Firsts

variable {α : Type}

/-- The entries of a list without later repetitions of a name, in their order. -/
def firsts (items : List (String × α)) : List (String × α) :=
  items.eraseDupsBy fun a b => a.1 == b.1

/-- Collecting from nothing keeps first finds. -/
theorem addNew_nil (items : List (String × α)) : addNew [] items = firsts items := by
  have hloop : ∀ seen : List (String × α),
      List.eraseDupsBy.loop (fun a b => a.1 == b.1) items seen = addNew seen.reverse items := by
    induction items with
    | nil => intro seen; rfl
    | cons item items ih =>
        intro seen
        have hany : seen.reverse.any (fun x => x.1 = item.1) = seen.any fun x => item.1 == x.1 := by
          rw [List.any_reverse]
          congr 1
          funext x
          rw [Bool.eq_iff_iff, decide_eq_true_iff, beq_iff_eq, eq_comm]
        rw [List.eraseDupsBy.loop, addNew_cons, hany]
        cases seen.any fun x => item.1 == x.1 with
        | true => exact ih seen
        | false => simpa using ih (item :: seen)
  exact (hloop []).symm

theorem nodup_firsts (items : List (String × α)) : ((firsts items).map (·.1)).Nodup := by
  rw [← addNew_nil]
  exact nodup_addNew List.nodup_nil

/-- Entries with names of their own are all first. -/
theorem firsts_of_nodup {items : List (String × α)} (h : (items.map (·.1)).Nodup) :
    firsts items = items := by
  rw [← addNew_nil]
  exact addNew_eq_append h

theorem find?_addNew (found items : List (String × α)) (name : String) :
    (addNew found items).find? (·.1 = name) = (found ++ items).find? (·.1 = name) := by
  induction items generalizing found with
  | nil => rw [List.append_nil]; rfl
  | cons item items ih =>
      rw [addNew_cons, ih]
      split
      next hseen =>
        -- an entry of the name of `item` stands before it
        obtain ⟨x, hx, hname⟩ := List.any_eq_true.mp hseen
        simp only [List.find?_append, List.find?_cons]
        by_cases hitem : item.1 = name
        · have hfirst : (found.find? fun y => y.1 = name).isSome = true :=
            List.find?_isSome.mpr ⟨x, hx, by simpa [← hitem] using hname⟩
          obtain ⟨y, hy⟩ := Option.isSome_iff_exists.mp hfirst
          simp [hy]
        · simp [hitem]
      next => rw [List.append_assoc, List.singleton_append]

/-- A name is looked up in first finds as in all. -/
theorem find?_firsts (items : List (String × α)) (name : String) :
    (firsts items).find? (·.1 = name) = items.find? (·.1 = name) := by
  rw [← addNew_nil, find?_addNew, List.nil_append]

end Firsts

namespace Records

variable {s : Structure} {found more : Records s}

theorem mem_names_of_mem {r : String × s.Payload} (h : r ∈ found) : r.1 ∈ found.names :=
  List.mem_map_of_mem h

theorem mem_join {r : String × s.Payload} :
    r ∈ found.join more ↔ r ∈ found ∨ (r ∈ more ∧ r.1 ∉ found.names) := by
  simp [join]

theorem nodup_names_join (hfound : found.names.Nodup) (hmore : more.names.Nodup) :
    (found.join more).names.Nodup := by
  rw [names, join, List.map_append, List.nodup_append]
  refine ⟨hfound, hmore.sublist (List.filter_sublist.map _), ?_⟩
  intro name hname name' hname' heq
  obtain ⟨r, hr, rfl⟩ := List.mem_map.mp hname'
  have hnew := (List.mem_filter.mp hr).2
  rw [Bool.not_eq_true', List.contains_eq_mem, decide_eq_false_iff_not] at hnew
  exact hnew (heq ▸ hname)

theorem any_eq_true_iff {name : String} : found.any (·.1 = name) = true ↔ name ∈ found.names := by
  simp [names]

/-- A name is in a joined list if it is in one of the two. -/
theorem mem_names_join {name : String} :
    name ∈ (found.join more).names ↔ name ∈ found.names ∨ name ∈ more.names := by
  constructor
  · intro h
    obtain ⟨r, hr, rfl⟩ := List.mem_map.mp h
    exact (mem_join.mp hr).imp mem_names_of_mem fun hr => mem_names_of_mem hr.1
  · intro h
    by_cases hseen : name ∈ found.names
    · obtain ⟨r, hr, rfl⟩ := List.mem_map.mp hseen
      exact mem_names_of_mem (mem_join.mpr (Or.inl hr))
    · obtain ⟨r, hr, rfl⟩ := List.mem_map.mp (h.resolve_left hseen)
      exact mem_names_of_mem (mem_join.mpr (Or.inr ⟨hr, hseen⟩))

/-- Joining one record after others. -/
theorem join_concat (found more : Records s) (x : String × s.Payload) :
    found.join (more ++ [x]) =
      if x.1 ∈ found.names then found.join more else found.join more ++ [x] := by
  by_cases hseen : x.1 ∈ found.names <;> simp [join, hseen]

theorem addNew_concat (found more : Records s) (x : String × s.Payload) :
    addNew found (more ++ [x]) =
      if x.1 ∈ names (addNew found more) then addNew found more
      else addNew found more ++ [x] := by
  rw [addNew, List.foldl_append]
  simp only [← any_eq_true_iff]
  rfl

/-- **Joining first finds** is collecting all. -/
theorem join_firsts (found more : Records s) : found.join (firsts more) = addNew found more := by
  induction more using List.reverseRecOn with
  | nil => simp [join, firsts, List.eraseDupsBy, List.eraseDupsBy.loop, addNew]
  | append_singleton more x ih =>
      rw [← addNew_nil, addNew_concat, addNew_concat, addNew_nil, ← ih]
      by_cases hmore : x.1 ∈ names (firsts more)
      · rw [if_pos hmore, if_pos (mem_names_join.mpr (Or.inr hmore))]
      · rw [if_neg hmore, join_concat]
        by_cases hfound : x.1 ∈ found.names
        · rw [if_pos hfound, if_pos (mem_names_join.mpr (Or.inl hfound))]
        · rw [if_neg hfound, if_neg fun h => (mem_names_join.mp h).elim hfound hmore]

end Records

end KeyedRelations
