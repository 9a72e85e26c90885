import KeyedRelations.Proofs.Scan.Whole

/-!
# Scans of collections that hold anything

A scan of a store that nobody else changes shows by rounds what one look at all entries of its
range would show.  This holds whatever the entries are: if some cannot be shown, the scan fails
as the look fails at the first of them, by rounds of any size.

`Store.scan_rest` says it for one round.  What is to be shown from the start of a round is
what the round answers and, unless it was the last, what is to be shown from the start of the
next.
-/

namespace KeyedRelations

/-- The entries of a tree behind a start and in a range. -/
def Tree.ahead {s : Structure} (tree : Tree s) (bound : Store.Bound) (range : Key) :
    List (Key × s.Form) :=
  tree.entries.filter fun e => !bound.excludes e.1 && range.isPrefixOf e.1

/-- Behind an entry that lies ahead stands what stood behind it. -/
theorem Tree.ahead_after {s : Structure} {tree : Tree s} {bound : Store.Bound} {range : Key}
    {before after : List (Key × s.Form)} {last : Key × s.Form}
    (h : tree.ahead bound range = before ++ last :: after) :
    tree.ahead (.after last.1) range = after :=
  Store.filter_after_of_ascending Prod.fst tree.ascending h

/-- What is shown of entries one after the other, up to the first failure. -/
theorem Store.visitAll_append (s : Structure) (skip : Nat) (pattern : String)
    (entries more : List (Key × s.Form)) :
    visitAll s skip pattern (entries ++ more) =
      match visitAll s skip pattern entries with
      | .error e => .error e
      | .ok items => (visitAll s skip pattern more).map (items ++ ·) := by
  induction entries with
  | nil =>
      rw [List.nil_append, visitAll]
      cases visitAll s skip pattern more <;> rfl
  | cons e entries ih =>
      rw [List.cons_append, visitAll, visitAll, ih]
      cases visit s skip pattern e with
      | error e => rfl
      | ok shown =>
          cases visitAll s skip pattern entries with
          | error e => rfl
          | ok items =>
              cases visitAll s skip pattern more with
              | error e => rfl
              | ok items' => simp [Except.map, List.append_assoc]

/-- What a scan is to show from a start on. -/
def Collection.rest (c : Collection) (t : Trees) (base : Key) (pattern : String)
    (bound : Store.Bound) : Except StoreError (List (String × c.kind.Item)) :=
  Store.visitAll c.kind base.length pattern
    ((t.tree c.kind).ahead bound (Store.rangeOf base pattern))

section Round

variable {c : Collection} {base : Key} {pattern : String} {bound : Store.Bound}
  {cursors resumed : Cursors} {cursor : Nat}

/-- A round fails at an entry that cannot be read. -/
theorem Store.scan_of_unreadable (st : Store) (hbase : c.base = .ok base)
    (hresume : resume? st.cursors cursor (rangeOf base pattern) = some (bound, resumed))
    (hpast : bound.Past (rangeOf base pattern)) (count : Nat) ⦃e : StoreError⦄
    (h : visitAll c.kind base.length pattern
      (((st.trees.tree c.kind).ahead bound (rangeOf base pattern)).take (max count 1)) =
        .error e) :
    st.scan c cursor pattern count = (.error e, { st with cursors := resumed }) := by
  have hround := scan_of_resume st hbase hresume count
    (examine_eq_filter (st.trees.tree c.kind).ascending hpast (max count 1))
  rw [Tree.ahead] at h
  rw [hround, h]

/-- Otherwise it shows the entries that it examines, and goes on behind the last. -/
theorem Store.scan_of_readable (st : Store) (hbase : c.base = .ok base)
    (hresume : resume? st.cursors cursor (rangeOf base pattern) = some (bound, resumed))
    (hpast : bound.Past (rangeOf base pattern)) (count : Nat)
    ⦃examined : List (Key × c.kind.Form)⦄ ⦃items : List (String × c.kind.Item)⦄
    (hexamined : ((st.trees.tree c.kind).ahead bound (rangeOf base pattern)).take (max count 1) =
      examined)
    (h : visitAll c.kind base.length pattern examined = .ok items) :
    st.scan c cursor pattern count =
      (.ok ⟨(nextCursor resumed examined (max count 1)).1, items⟩,
        { st with cursors := (nextCursor resumed examined (max count 1)).2 }) := by
  have hround := scan_of_resume st hbase hresume count
    (examine_eq_filter (st.trees.tree c.kind).ascending hpast (max count 1))
  rw [Tree.ahead] at hexamined
  rw [hround, hexamined, h]

/-- **What one round answers**, over any entries: it fails as the rest fails, or it answers the
rest, or a first part of the rest and a cursor for an entry that lay ahead. -/
theorem Store.scan_rest (st : Store) (hbase : c.base = .ok base)
    (hresume : resume? st.cursors cursor (rangeOf base pattern) = some (bound, resumed))
    (hpast : bound.Past (rangeOf base pattern)) (count : Nat) :
    (∃ e, c.rest st.trees base pattern bound = .error e ∧
      st.scan c cursor pattern count = (.error e, { st with cursors := resumed })) ∨
    (∃ items, c.rest st.trees base pattern bound = .ok items ∧
      st.scan c cursor pattern count = (.ok ⟨0, items⟩, { st with cursors := resumed })) ∨
    ∃ key items, rangeOf base pattern <+: key ∧
      c.rest st.trees base pattern bound =
        (c.rest st.trees base pattern (.after key)).map (items ++ ·) ∧
      ((st.trees.tree c.kind).ahead (.after key) (rangeOf base pattern)).length <
        ((st.trees.tree c.kind).ahead bound (rangeOf base pattern)).length ∧
      st.scan c cursor pattern count =
        (.ok ⟨resumed.next, items⟩, { st with cursors := (resumed.issue key).2 }) := by
  have hfails := scan_of_unreadable st hbase hresume hpast count
  have hshows := scan_of_readable st hbase hresume hpast count
  simp only [Collection.rest]
  generalize hahead : (st.trees.tree c.kind).ahead bound (rangeOf base pattern) = ahead at *
  by_cases hfew : ahead.length < max count 1
  · have hall : ahead.take (max count 1) = ahead := List.take_of_length_le (by omega)
    rw [hall] at hfails
    cases hvisit : visitAll c.kind base.length pattern ahead with
    | error e => exact Or.inl ⟨e, rfl, hfails hvisit⟩
    | ok items =>
        have hround := hshows hall hvisit
        rw [nextCursor_of_few hfew] at hround
        exact Or.inr (Or.inl ⟨items, rfl, hround⟩)
  · obtain ⟨n, hn⟩ : ∃ n, max count 1 = n + 1 := ⟨max count 1 - 1, by omega⟩
    rw [hn] at hfails hshows hfew
    obtain ⟨last, after, hsplit, htaken⟩ := exists_take_add_one (by omega : n < ahead.length)
    have hlength : (ahead.take n).length = n := List.length_take_of_le (by omega)
    have hnext := nextCursor_concat resumed (ahead.take n) last
    have hvisit := visitAll_append c.kind base.length pattern (ahead.take n ++ [last]) after
    rw [hlength, ← htaken] at hnext
    rw [List.append_assoc, List.singleton_append, ← hsplit, ← htaken] at hvisit
    cases hexamined : visitAll c.kind base.length pattern (ahead.take (n + 1)) with
    | error e =>
        rw [hexamined] at hvisit
        exact Or.inl ⟨e, hvisit, hfails hexamined⟩
    | ok items =>
        have hround := hshows rfl hexamined
        rw [hexamined] at hvisit
        have hlast : last ∈ (st.trees.tree c.kind).ahead bound (rangeOf base pattern) := by
          rw [hahead, hsplit]
          exact List.mem_append_right _ List.mem_cons_self
        have hrange : rangeOf base pattern <+: last.1 :=
          List.isPrefixOf_iff_prefix.mp (Bool.and_eq_true _ _ ▸ (List.mem_filter.mp hlast).2).2
        have hafter := Tree.ahead_after (hahead.trans hsplit)
        have hfewer : after.length < ahead.length := by
          rw [hsplit, List.length_append, List.length_cons]
          omega
        rw [hnext] at hround
        refine Or.inr (Or.inr ⟨last.1, items, hrange, ?_, ?_, hround⟩)
        · rw [hafter]
          exact hvisit
        · rw [hafter]
          exact hfewer

/-- A scan under way comes to its rest, if it may have more rounds than there are entries
ahead.  Each round closes the cursor that it goes on from, and the last opens none. -/
theorem Paging.drain_rest {t : Trees} (hbase : c.base = .ok base) (count : Nat) {n : Nat}
    {paging : Paging} (hposition : paging.cursor.position? = some cursor)
    (hresume : Store.resume? cursors cursor (Store.rangeOf base pattern) = some (bound, resumed))
    (hpast : bound.Past (Store.rangeOf base pattern))
    (hn : ((t.tree c.kind).ahead bound (Store.rangeOf base pattern)).length < n)
    (found : List (String × c.kind.Item)) :
    ∃ after, (resumed.opened = [] → after.opened = []) ∧
      paging.drain (fun cursor => Store.perform (.scan c cursor pattern count)) n found
          ⟨t, cursors⟩ =
        (some ((c.rest t base pattern bound).map (addNew found)), ⟨t, after⟩) := by
  induction n generalizing paging cursors resumed cursor bound found with
  | zero => omega
  | succ n ih =>
      rw [Paging.drain, Paging.next, hposition]
      dsimp only [Store.perform]
      rcases Store.scan_rest ⟨t, cursors⟩ hbase hresume hpast count with
        ⟨e, hrest, hscan⟩ | ⟨items, hrest, hscan⟩ | ⟨key, items, hrange, hrest, hfewer, hscan⟩
      · refine ⟨resumed, id, ?_⟩
        rw [hscan, hrest]
        rfl
      · refine ⟨resumed, id, ?_⟩
        rw [hscan, hrest]
        dsimp only
        rw [Paging.drain_of_done _ _ (by rfl)]
        rfl
      · obtain ⟨afterResume, hissued, hclosed⟩ :=
          Store.resume?_issue resumed key (Store.rangeOf base pattern)
        have hanswered : (paging.answered resumed.next).cursor.position? = some resumed.next := rfl
        have hleft := Nat.lt_of_lt_of_le hfewer (Nat.lt_succ_iff.mp hn)
        obtain ⟨after, hclosed', hdrain⟩ := ih hanswered hissued (Store.Bound.past_after hrange)
          hleft (addNew found items)
        refine ⟨after, fun h => hclosed' (hclosed h), ?_⟩
        rw [hscan]
        dsimp only
        rw [hdrain, hrest]
        cases c.rest t base pattern (.after key) with
        | error e => rfl
        | ok more => simp [Except.map, addNew_append]

end Round

/-! ### Whole scans -/

/-- What a whole scan comes to. -/
def ScanRequest.whole (r : ScanRequest) (t : Trees) : Except StoreError (List r.Found) :=
  match r.collection.base with
  | .error e => .error e
  | .ok base =>
    (r.collection.rest t base r.pattern
      (.atOrAfter (Store.rangeOf base r.pattern))).map (addNew [])

theorem ScanRequest.whole_of_base {r : ScanRequest} {base : Key}
    (hbase : r.collection.base = .ok base) (t : Trees) :
    r.whole t = (r.collection.rest t base r.pattern
      (.atOrAfter (Store.rangeOf base r.pattern))).map (addNew []) := by
  rw [whole, hbase]

theorem ScanRequest.whole_of_base_error {r : ScanRequest} {e : StoreError}
    (hbase : r.collection.base = .error e) (t : Trees) : r.whole t = .error e := by
  rw [whole, hbase]

/-- What a scan shows has names that match. -/
theorem Collection.accepts_of_rest {c : Collection} {t : Trees} {base : Key} {pattern : String}
    {bound : Store.Bound} {items : List (String × c.kind.Item)}
    (h : c.rest t base pattern bound = .ok items) {x : String × c.kind.Item} (hx : x ∈ items) :
    Glob.accepts pattern x.1 = true := by
  obtain ⟨e, -, -, haccepts, -⟩ := Store.mem_of_visitAll h hx
  exact haccepts

theorem ScanRequest.accepts_of_whole {r : ScanRequest} {t : Trees} {items : List r.Found}
    (h : r.whole t = .ok items) {x : r.Found} (hx : x ∈ items) :
    Glob.accepts r.pattern x.1 = true := by
  cases hbase : r.collection.base with
  | error e =>
      rw [whole_of_base_error hbase] at h
      cases h
  | ok base =>
      rw [whole_of_base hbase] at h
      cases hrest : r.collection.rest t base r.pattern
          (.atOrAfter (Store.rangeOf base r.pattern)) with
      | error e =>
          rw [hrest] at h
          cases h
      | ok shown =>
          rw [hrest] at h
          obtain rfl : addNew [] shown = items := Except.ok.inj h
          have hshown := (mem_or_mem_of_mem_addNew hx).resolve_left List.not_mem_nil
          exact Collection.accepts_of_rest hrest hshown

/-- A store has no fewer entries than lie ahead. -/
theorem Trees.length_ahead_le (t : Trees) (s : Structure) (bound : Store.Bound) (range : Key) :
    ((t.tree s).ahead bound range).length ≤ t.size := by
  have htree : (t.tree s).size ≤ t.size := by
    cases s <;> simp only [tree, size] <;> omega
  exact (List.length_filter_le _ _).trans htree

/-- **A scan comes to the end** within the store's patience, whatever the store holds and
whichever cursors are open.  It leaves no cursor open, if it found none. -/
theorem ScanRequest.drain_whole (r : ScanRequest) (t : Trees) (cursors : Cursors) :
    ∃ after, (cursors.opened = [] → after.opened = []) ∧
      Paging.start.drain (fun cursor => Store.perform (r.round cursor)) (t.size + 1) []
        ⟨t, cursors⟩ = (some (r.whole t), ⟨t, after⟩) := by
  cases hbase : r.collection.base with
  | error e =>
      refine ⟨cursors, id, ?_⟩
      rw [whole_of_base_error hbase, Paging.drain, Paging.next]
      simp only [Paging.start, ScanCursor.position?, Store.perform, Store.scan, hbase]
  | ok base =>
      have hresume := Store.resume?_start cursors (Store.rangeOf base r.pattern)
      have hrounds := t.length_ahead_le r.collection.kind
        (.atOrAfter (Store.rangeOf base r.pattern)) (Store.rangeOf base r.pattern)
      rw [whole_of_base hbase]
      exact Paging.drain_rest hbase r.count (by rfl) hresume (Store.Bound.past_atOrAfter _)
        (Nat.lt_succ_of_le hrounds) []

end KeyedRelations
