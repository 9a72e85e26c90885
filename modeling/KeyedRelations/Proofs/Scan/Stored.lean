import KeyedRelations.Proofs.Store.Program
import KeyedRelations.Proofs.Store.Round

/-!
# What a scan answers is stored

Over a store that may hold anything a scan can fail, but what it answers when it does not
is stored: it was read off an entry of its collection whose name matches, and no name is
answered twice.
-/

namespace KeyedRelations

/-! ### Collecting the items of rounds -/

section Collecting

variable {α : Type} {found items : List (String × α)}

theorem addNew_cons (found : List (String × α)) (item : String × α) (items : List (String × α)) :
    addNew found (item :: items) =
      addNew (if found.any (·.1 = item.1) then found else found ++ [item]) items := rfl

theorem addNew_append (found items more : List (String × α)) :
    addNew found (items ++ more) = addNew (addNew found items) more := List.foldl_append

theorem mem_or_mem_of_mem_addNew {x : String × α} (h : x ∈ addNew found items) :
    x ∈ found ∨ x ∈ items := by
  induction items generalizing found with
  | nil => exact Or.inl h
  | cons item items ih =>
      rw [addNew_cons] at h
      rcases ih h with h | h
      · split at h
        · exact Or.inl h
        · rcases List.mem_append.mp h with h | h
          · exact Or.inl h
          · exact Or.inr (List.mem_singleton.mp h ▸ List.mem_cons_self)
      · exact Or.inr (List.mem_cons_of_mem _ h)

/-- Collecting keeps names apart. -/
theorem nodup_addNew (h : (found.map (·.1)).Nodup) : ((addNew found items).map (·.1)).Nodup := by
  induction items generalizing found with
  | nil => exact h
  | cons item items ih =>
      rw [addNew_cons]
      apply ih
      split
      next => exact h
      next hnew =>
        rw [List.map_append, List.nodup_append]
        refine ⟨h, by simp, ?_⟩
        intro name hname name' hname' heq
        obtain ⟨x, hx, rfl⟩ := List.mem_map.mp hname
        obtain rfl : name' = item.1 := by simpa using hname'
        exact hnew (List.any_eq_true.mpr ⟨x, hx, by simpa using heq⟩)

/-- Items with names of their own are all new. -/
theorem addNew_eq_append (h : ((found ++ items).map (·.1)).Nodup) :
    addNew found items = found ++ items := by
  induction items generalizing found with
  | nil => simp [addNew]
  | cons item items ih =>
      have hnew : found.any (fun x => x.1 = item.1) = false := by
        rw [List.map_append, List.nodup_append] at h
        rw [List.any_eq_false]
        intro x hx hsame
        exact h.2.2 x.1 (List.mem_map_of_mem hx) item.1 (by simp) (by simpa using hsame)
      have hrest : ((found ++ [item]) ++ items).map (·.1) |>.Nodup := by
        simpa [List.append_assoc] using h
      rw [addNew_cons, hnew, if_neg (by simp), ih hrest, List.append_assoc]
      rfl

end Collecting

/-- Over any store, what a scan under way answers at its end has each name once, if this is so
already of what it has found. -/
theorem Paging.nodup_of_drain {σ ε α : Type} {fetch : Nat → σ → Except ε (Page (String × α)) × σ}
    {n : Nat} {paging : Paging} {found items : List (String × α)} {s s' : σ}
    (hfound : (found.map (·.1)).Nodup)
    (h : paging.drain fetch n found s = (some (.ok items), s')) : (items.map (·.1)).Nodup := by
  induction n generalizing paging found s with
  | zero =>
      rw [drain] at h
      split at h
      · obtain ⟨rfl, -⟩ : found = items ∧ s = s' := by simpa using h
        exact hfound
      · simp at h
  | succ n ih =>
      rw [drain] at h
      rcases hnext : paging.next fetch s with ⟨_ | ⟨⟨e⟩ | ⟨page⟩⟩, paging', s₁⟩
      · obtain ⟨rfl, -⟩ : found = items ∧ s₁ = s' := by simpa [hnext] using h
        exact hfound
      · simp [hnext] at h
      · rw [hnext] at h
        exact ih (nodup_addNew hfound) h

/-- A scan that comes to items has drained its rounds. -/
theorem Program.drain_of_scan {σ : Type} {h : Handler σ} {request : ScanRequest}
    {items : List request.Found} {s s' : σ} (hrun : (scan request).run h s = (.ok items, s')) :
    Paging.start.drain (fun cursor => h.perform (request.round cursor)) (h.patience s) [] s =
      (some (.ok items), s') := by
  simp only [scan, run] at hrun
  rcases hdrain : Paging.start.drain (fun cursor => h.perform (request.round cursor))
      (h.patience s) [] s with ⟨⟨_⟩ | ⟨⟨_⟩ | ⟨found⟩⟩, s₁⟩
  · simp [hdrain] at hrun
  · simp [hdrain] at hrun
  · obtain ⟨rfl, rfl⟩ : found = items ∧ s₁ = s' := by simpa [hdrain] using hrun
    rfl

/-- **A scan of any store** answers each name once. -/
theorem Program.nodup_of_scan {σ : Type} {h : Handler σ} {request : ScanRequest}
    {items : List request.Found} {s s' : σ} (hrun : (scan request).run h s = (.ok items, s')) :
    (items.map (·.1)).Nodup :=
  Paging.nodup_of_drain (by simp) (drain_of_scan hrun)

/-! ### One round -/

/-- An item was read off an entry of the collection whose name matches. -/
structure Collection.Reveals (c : Collection) (t : Trees) (pattern : String)
    (x : String × c.kind.Item) : Prop where
  accepts : Glob.accepts pattern x.1 = true
  stored : ∃ base form, c.base = .ok base ∧
    (base ++ Utf8.bytes x.1, form) ∈ (t.tree c.kind).entries ∧ c.kind.reveal x.1 form = .ok x.2

namespace Store

/-- What is shown of examined entries was read off one of them. -/
theorem mem_of_visitAll {s : Structure} {skip : Nat} {pattern : String}
    {examined : List (Key × s.Form)} {items : List (String × s.Item)} {x : String × s.Item}
    (h : visitAll s skip pattern examined = .ok items) (hx : x ∈ items) :
    ∃ e ∈ examined, Utf8.text? (e.1.drop skip) = some x.1 ∧
      Glob.accepts pattern x.1 = true ∧ s.reveal x.1 e.2 = .ok x.2 := by
  induction examined generalizing items with
  | nil =>
      cases h
      cases hx
  | cons e rest ih =>
      rw [visitAll] at h
      cases hvisit : visit s skip pattern e with
      | error error => simp [hvisit] at h
      | ok shown =>
          cases hrest : visitAll s skip pattern rest with
          | error error => simp [hvisit, hrest] at h
          | ok others =>
              simp only [hvisit, hrest] at h
              cases h
              rcases List.mem_append.mp hx with hx | hx
              · refine ⟨e, List.mem_cons_self, ?_⟩
                obtain rfl : shown = some x := Option.mem_toList.mp hx
                rw [visit] at hvisit
                split at hvisit
                next => cases hvisit
                next name hname =>
                  split at hvisit
                  next haccepts =>
                    cases hreveal : s.reveal name e.2 with
                    | error error => simp [hreveal, Except.map] at hvisit
                    | ok item =>
                        rw [hreveal] at hvisit
                        cases hvisit
                        exact ⟨hname, haccepts, hreveal⟩
                  next => cases hvisit
              · obtain ⟨e', he', hfacts⟩ := ih hrest hx
                exact ⟨e', List.mem_cons_of_mem _ he', hfacts⟩

/-- What is examined lies in the range. -/
theorem mem_of_mem_examine {α : Type} {entries : List (Key × α)} {bound : Bound} {range : Key}
    {limit : Nat} {e : Key × α} (h : e ∈ examine entries bound range limit) :
    e ∈ entries ∧ range <+: e.1 := by
  have h := List.mem_of_mem_take h
  have hrange := List.all_eq_true.mp List.all_takeWhile e h
  exact ⟨(List.dropWhile_sublist _).subset ((List.takeWhile_sublist _).subset h),
    List.isPrefixOf_iff_prefix.mp hrange⟩

/-- **What a round answers is stored.** -/
theorem reveals_of_scan {c : Collection} {cursor : Nat} {pattern : String} {count : Nat}
    {st st' : Store} {page : Page (String × c.kind.Item)}
    (h : st.scan c cursor pattern count = (.ok page, st')) {x : String × c.kind.Item}
    (hx : x ∈ page.items) : c.Reveals st.trees pattern x := by
  rw [scan] at h
  cases hbase : c.base with
  | error e => simp [hbase] at h
  | ok base =>
      simp only [hbase] at h
      split at h
      next => simp at h
      next bound cursors hresume =>
        split at h
        next => simp at h
        next items hitems =>
          obtain rfl : _ = page := by simpa using congrArg Prod.fst h
          obtain ⟨e, he, hname, haccepts, hreveal⟩ := mem_of_visitAll hitems hx
          obtain ⟨hentry, hrange⟩ := mem_of_mem_examine he
          obtain ⟨rest, hrest⟩ := (List.prefix_append base _).trans hrange
          have hkey : e.1 = base ++ Utf8.bytes x.1 := by
            rw [← hrest, List.drop_left] at hname
            rw [Utf8.bytes_of_text? hname, hrest]
          exact ⟨haccepts, base, e.2, hbase, hkey ▸ hentry, hreveal⟩

end Store

/-! ### Whole scans -/

namespace Program

/-- What a scan under way answers at its end is stored, if this is so already of what it has
found. -/
theorem reveals_of_drain (request : ScanRequest) {n : Nat} {paging : Paging}
    {found items : List request.Found} {st st' : Store}
    (hfound : ∀ x ∈ found, request.collection.Reveals st.trees request.pattern x)
    (h : paging.drain (fun cursor => Store.perform (request.round cursor)) n found st =
      (some (.ok items), st')) :
    ∀ x ∈ items, request.collection.Reveals st.trees request.pattern x := by
  induction n generalizing paging found st with
  | zero =>
      rw [Paging.drain] at h
      split at h
      · obtain ⟨rfl, rfl⟩ : found = items ∧ st = st' := by simpa using h
        exact hfound
      · simp at h
  | succ n ih =>
      rw [Paging.drain, Paging.next] at h
      cases hposition : paging.cursor.position? with
      | none =>
          simp only [hposition] at h
          obtain ⟨rfl, rfl⟩ : found = items ∧ st = st' := by simpa using h
          exact hfound
      | some cursor =>
          simp only [hposition] at h
          rcases hscan : Store.perform (request.round cursor) st with ⟨⟨_⟩ | ⟨page⟩, st₁⟩
          · simp [hscan] at h
          · simp only [hscan] at h
            have htrees : (Store.perform (request.round cursor) st).2.trees = st.trees :=
              Store.perform_trees_of_not_isWrite rfl st
            rw [hscan] at htrees
            dsimp only at htrees
            rw [← htrees]
            refine ih (fun x hx => ?_) h
            rw [htrees]
            rcases mem_or_mem_of_mem_addNew hx with hx | hx
            · exact hfound x hx
            · exact Store.reveals_of_scan hscan hx

/-- **What a scan answers is stored**, each name once. -/
theorem scan_ensures (t : Trees) (request : ScanRequest) :
    Ensures t (scan request) fun items => (items.map (·.1)).Nodup ∧
      ∀ x ∈ items, request.collection.Reveals t request.pattern x := by
  intro cursors items st' hrun
  exact ⟨nodup_of_scan hrun, reveals_of_drain request (by simp) (drain_of_scan hrun)⟩

end Program

end KeyedRelations
