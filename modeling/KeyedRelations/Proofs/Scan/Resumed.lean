import Mathlib
import KeyedRelations.Proofs.Scan.Rest

/-!
# Rounds that go on with another pattern

A cursor stands for a key that a round examined, and the round that goes on from it may have
another pattern.  Its range need not hold that key, and if the range lies behind it, other keys of
the collection may stand between the two.  A round stops at the first key that lacks its range, so
it stops at the first of these: it examines nothing and ends the scan, whatever lies ahead
(`Store.examine_of_blocked`).  If none stands there, the round examines the first of what lies
ahead (`Store.examine_of_clear`).

Between two rounds of a scan the store may come to hold anything.  `Store.key?_of_run` follows a
cursor through the commands of other clients: as long as it is open, it stands for the key that it
was issued for.
-/

namespace KeyedRelations

/-! ### Keys in between -/

section Blocked

variable {s : Structure} {tree : Tree s} {key range : Key}

/-- Whether a key of a tree stands between the key that a round goes on from and its range. -/
def Tree.Blocked (tree : Tree s) (key range : Key) : Prop :=
  ∃ e ∈ tree.entries, key < e.1 ∧ e.1 < range

instance (tree : Tree s) (key range : Key) : Decidable (tree.Blocked key range) :=
  inferInstanceAs (Decidable (∃ e ∈ tree.entries, key < e.1 ∧ e.1 < range))

/-- Nothing stands between a key and a range that it lies in. -/
theorem Tree.not_blocked (h : range <+: key) : ¬ tree.Blocked key range := by
  rintro ⟨e, -, hbehind, hbefore⟩
  exact not_lt_of_isPrefix h (List.lt_trans hbehind hbefore)

/-- A round that is blocked examines nothing. -/
theorem Store.examine_of_blocked (h : tree.Blocked key range) (limit : Nat) :
    examine tree.entries (.after key) range limit = [] := by
  obtain ⟨e, he, hbehind, hbefore⟩ := h
  have hmem : e ∈ tree.entries.filter fun e => !(Bound.after key).excludes e.1 :=
    List.mem_filter.mpr ⟨he, by simpa [Bound.excludes] using hbehind⟩
  have hsorted := tree.ascending.filter fun e => !(Bound.after key).excludes e.1
  rw [examine, dropWhile_eq_filter tree.ascending]
  cases hparts : tree.entries.filter fun e => !(Bound.after key).excludes e.1 with
  | nil => exact List.take_nil
  | cons first rest =>
      rw [hparts] at hmem hsorted
      -- The first key behind the start stands before the range, as `e` does.
      have hfirst : first.1 < range := by
        rcases List.mem_cons.mp hmem with rfl | hrest
        · exact hbefore
        · exact List.lt_trans (List.rel_of_pairwise_cons hsorted hrest) hbefore
      have hlacks : ¬ range.isPrefixOf first.1 = true := fun hrange =>
        not_lt_of_isPrefix (List.isPrefixOf_iff_prefix.mp hrange) hfirst
      rw [List.takeWhile_cons, if_neg hlacks, List.take_nil]

/-- A round that is not blocked examines the first of what lies ahead. -/
theorem Store.examine_of_clear (h : ¬ tree.Blocked key range) (limit : Nat) :
    examine tree.entries (.after key) range limit =
      (tree.ahead (.after key) range).take limit := by
  rw [examine, takeWhile_dropWhile_eq_filter tree.ascending, Tree.ahead]
  intro e he hafter hbefore
  exact h ⟨e, he, by simpa [Bound.excludes] using hafter, hbefore⟩

/-- So it examines the first of what lies ahead exactly if it is not blocked, or nothing lies
ahead. -/
theorem Store.examine_eq_take_iff {limit : Nat} (hlimit : 0 < limit) :
    examine tree.entries (.after key) range limit = (tree.ahead (.after key) range).take limit ↔
      (tree.Blocked key range → tree.ahead (.after key) range = []) := by
  by_cases hblocked : tree.Blocked key range
  · rw [examine_of_blocked hblocked, eq_comm, List.take_eq_nil_iff]
    simp [hblocked, Nat.ne_of_gt hlimit]
  · simp [examine_of_clear hblocked, hblocked]

end Blocked

namespace Store

variable {c : Collection} {base key : Key} {cursor : Nat} {st st' : Store}

/-! ### Cursors and what happens to the store -/

/-- What happens to a store: its trees come to hold anything, and a client's command is carried
out. -/
def Step (st st' : Store) : Prop :=
  ∃ (t : Trees) (cmd : Command), st' = (perform cmd ⟨t, st.cursors⟩).2

/-- **A cursor stands for one key.**  Whatever happens, a number that was issued stands for the same
key as before, or for none any more. -/
theorem key?_of_run (hrun : Relation.ReflTransGen Step st st')
    (hissued : cursor ≤ st.cursors.issued) :
    cursor ≤ st'.cursors.issued ∧
      (st'.cursors.key? cursor = st.cursors.key? cursor ∨ st'.cursors.key? cursor = none) := by
  induction hrun with
  | refl => exact ⟨hissued, Or.inl rfl⟩
  | tail _ hstep ih =>
      obtain ⟨t, cmd, rfl⟩ := hstep
      obtain ⟨hstill, hkey⟩ := perform_key?_or ⟨t, _⟩ cmd ih.1
      refine ⟨hstill, ?_⟩
      rcases hkey with hsame | hnone
      · rw [hsame]
        exact ih.2
      · exact Or.inr hnone

/-- A round that goes on answers a cursor for a key of its range. -/
theorem key?_of_scan {pattern : String} {count : Nat} {page : Page (String × c.kind.Item)}
    (h : st.scan c cursor pattern count = (.ok page, st')) (hnext : page.cursor ≠ 0) :
    ∃ base key, c.base = .ok base ∧ rangeOf base pattern <+: key ∧
      st'.cursors.key? page.cursor = some key ∧ page.cursor ≤ st'.cursors.issued := by
  cases hbase : c.base with
  | error e => simp [scan, hbase] at h
  | ok base =>
      cases hresume : resume? st.cursors cursor (rangeOf base pattern) with
      | none => simp [scan, hbase, hresume] at h
      | some start =>
          obtain ⟨bound, resumed⟩ := start
          rw [scan_of_resume st hbase hresume count rfl] at h
          split at h
          next => cases h
          next items hitems =>
            cases h
            obtain ⟨last, hlast, hissue⟩ := mem_of_nextCursor hnext
            refine ⟨base, last.1, rfl, (mem_of_mem_examine hlast).2, ?_, ?_⟩
            · rw [hissue]
              exact Cursors.key?_issue_self _ _
            · rw [hissue]
              exact Nat.le_refl _

end Store

/-! ### Rounds -/

/-- What a round is to answer that goes on behind a key: what matches among the first of what lies
ahead in its range, and the next cursor unless fewer lie ahead than it may examine. -/
def Collection.pageAfter (c : Collection) (st : Store) (base key : Key) (pattern : String)
    (count : Nat) : Except StoreError (Page (String × c.kind.Item)) :=
  let ahead := (st.trees.tree c.kind).ahead (.after key) (Store.rangeOf base pattern)
  (Store.visitAll c.kind base.length pattern (ahead.take (max count 1))).map fun items =>
    ⟨if ahead.length < max count 1 then 0 else st.cursors.next, items⟩

/-- In a sound collection what lies ahead are the records behind the key whose names start with the
literal prefix of the pattern, and all that match can be shown. -/
theorem Collection.Sound.pageAfter_eq {c : Collection} {st : Store} (h : c.Sound st.trees)
    {base : Key} (hbase : c.base = .ok base) (key : Key) (pattern : String) (count : Nat) :
    c.pageAfter st base key pattern count =
      let ahead := c.candidates st.trees base (.after key) (Store.rangeOf base pattern)
      .ok ⟨if ahead.length < max count 1 then 0 else st.cursors.next,
        c.shown pattern (ahead.take (max count 1))⟩ := by
  rw [pageAfter, Tree.ahead, h.filter_eq hbase (List.prefix_append _ _), ← List.map_take,
    visitAll_entries, List.length_map]
  rfl

namespace Store

variable {c : Collection} {base key : Key} {cursor : Nat}

/-- How a round goes that goes on from a cursor, which stands for a key. -/
structure Resumption (c : Collection) (st : Store) (cursor : Nat) (base key : Key)
    (pattern : String) (count : Nat) : Prop where
  /-- It examines the first entries behind the key and in its range, exactly if none stands in
  between or there are none. -/
  examined : examine (st.trees.tree c.kind).entries (.after key) (rangeOf base pattern)
      (max count 1) =
        ((st.trees.tree c.kind).ahead (.after key) (rangeOf base pattern)).take (max count 1) ↔
    ((st.trees.tree c.kind).Blocked key (rangeOf base pattern) →
      (st.trees.tree c.kind).ahead (.after key) (rangeOf base pattern) = [])
  /-- If none stands in between, it answers what it is to answer. -/
  clear : ¬ (st.trees.tree c.kind).Blocked key (rangeOf base pattern) →
    (st.scan c cursor pattern count).1 = c.pageAfter st base key pattern count
  /-- Else it ends the scan and shows nothing. -/
  blocked : (st.trees.tree c.kind).Blocked key (rangeOf base pattern) →
    (st.scan c cursor pattern count).1 = .ok ⟨0, []⟩
  /-- Only keys of the collection itself can stand in between. -/
  own : ∀ e ∈ (st.trees.tree c.kind).entries, key < e.1 → e.1 < rangeOf base pattern →
    base <+: e.1

/-- The cursor of the next round, if there is one. -/
theorem nextCursor_take {α : Type} (cursors : Cursors) (ahead : List (Key × α)) {limit : Nat}
    (hlimit : 0 < limit) :
    (nextCursor cursors (ahead.take limit) limit).1 =
      if ahead.length < limit then 0 else cursors.next := by
  split
  next hfew =>
    rw [List.take_of_length_le (Nat.le_of_lt hfew), nextCursor_of_few hfew]
  next hmany =>
    obtain ⟨n, rfl⟩ : ∃ n, limit = n + 1 := ⟨limit - 1, by omega⟩
    obtain ⟨last, after, -, htaken⟩ := exists_take_add_one (by omega : n < ahead.length)
    have hnext := nextCursor_concat cursors (ahead.take n) last
    rw [List.length_take_of_le (by omega)] at hnext
    rw [htaken, hnext]
    rfl

/-- A round from an open cursor. -/
theorem resumption_of_key? (st : Store) (hbase : c.base = .ok base) (hkey : base <+: key)
    (hopen : st.cursors.key? cursor = some key) (hcursor : cursor ≠ 0) (pattern : String)
    (count : Nat) : Resumption c st cursor base key pattern count where
  examined := examine_eq_take_iff (by omega)
  clear hclear := by
    have hround := scan_of_resume st hbase (resume?_of_key? hopen hcursor _) count
      (examine_of_clear hclear (max count 1))
    rw [hround, Collection.pageAfter]
    have hnext := nextCursor_take (st.cursors.without (some (cursor, key)))
      ((st.trees.tree c.kind).ahead (.after key) (rangeOf base pattern))
      (by omega : 0 < max count 1)
    cases visitAll c.kind base.length pattern
        (((st.trees.tree c.kind).ahead (.after key) (rangeOf base pattern)).take (max count 1)) with
    | error e => rfl
    | ok items =>
        dsimp only [Except.map]
        rw [hnext]
        rfl
  blocked hblocked := by
    have hround := scan_of_resume st hbase (resume?_of_key? hopen hcursor _) count
      (examine_of_blocked hblocked (max count 1))
    rw [hround]
    rfl
  own _ _ hbehind hbefore := isPrefix_of_between hkey (List.prefix_append _ _) hbehind hbefore

/-- **A round that goes on with any pattern.**  A cursor that an earlier round of the same
collection answered, with whatever pattern and page size, stands for a key of that round's range as
long as it is open.  The round that goes on from it examines the first entries behind the key whose
names start with the literal prefix of its own pattern, answers those that match, and ends the scan
if there are fewer than it may examine, unless another key of the collection stands between the key
and its range.  Then it answers nothing and ends the scan.  This cannot be if its range holds the
range of the earlier round, as it does if the pattern stays the same. -/
theorem round_resumed {st₀ st₁ st : Store} {start : Nat} {earlier : String} {count₀ : Nat}
    {page : Page (String × c.kind.Item)}
    (hissue : st₀.scan c start earlier count₀ = (.ok page, st₁)) (hnext : page.cursor ≠ 0)
    (hrun : Relation.ReflTransGen Step st₁ st)
    (hlive : st.cursors.key? page.cursor = some key) (pattern : String) (count : Nat) :
    ∃ base, c.base = .ok base ∧ rangeOf base earlier <+: key ∧
      Resumption c st page.cursor base key pattern count ∧
      (rangeOf base pattern <+: rangeOf base earlier →
        ¬ (st.trees.tree c.kind).Blocked key (rangeOf base pattern)) ∧
      (c.Sound st.trees → c.pageAfter st base key pattern count =
        let ahead := c.candidates st.trees base (.after key) (rangeOf base pattern)
        .ok ⟨if ahead.length < max count 1 then 0 else st.cursors.next,
          c.shown pattern (ahead.take (max count 1))⟩) := by
  obtain ⟨base, key', hbase, hrange, hkey, hissued⟩ := key?_of_scan hissue hnext
  have hsame : key' = key := by
    rcases (key?_of_run hrun hissued).2 with hstill | hnone
    · rw [hlive, hkey] at hstill
      exact (Option.some.inj hstill).symm
    · rw [hlive] at hnone
      cases hnone
  subst hsame
  exact ⟨base, hbase, hrange,
    resumption_of_key? st hbase ((List.prefix_append _ _).trans hrange) hlive hnext pattern count,
    fun hwider => Tree.not_blocked (hwider.trans hrange),
    fun hsound => hsound.pageAfter_eq hbase key' pattern count⟩

/-- A set. -/
def letters : Collection := ⟨.set, "s"⟩

/-- A store of the set with three members. -/
def threeLetters : Store :=
  (perform (.write letters "c" () .always)
    (perform (.write letters "b" () .always)
      (perform (.write letters "a" () .always) empty).2).2).2

/-- The store after a round that examined the first member, and after another client added one. -/
def fourLetters : Store :=
  (perform (.write letters "b2" () .always) (threeLetters.scan letters 0 "*" 1).2).2

theorem round_resumed_fourLetters :
    ((threeLetters.scan letters 0 "*" 1).1.toOption.map fun page => page.cursor) = some 1 ∧
      fourLetters.cursors.key? 1 = some [115, 0, 97] ∧
      (fourLetters.scan letters 1 "b*" 1).1 = .ok ⟨2, [("b", ())]⟩ ∧
      (fourLetters.scan letters 1 "c*" 1).1 = .ok ⟨0, []⟩ := by
  have hissue : threeLetters.scan letters 0 "*" 1 =
      (.ok ⟨1, [("a", ())]⟩, (threeLetters.scan letters 0 "*" 1).2) := by cbv
  have hlive : fourLetters.cursors.key? 1 = some [115, 0, 97] := by cbv
  have hrun : Relation.ReflTransGen Step (threeLetters.scan letters 0 "*" 1).2 fourLetters :=
    .single ⟨_, .write letters "b2" () .always, rfl⟩
  have hround := round_resumed hissue (by decide) hrun hlive
  refine ⟨by rw [hissue]; rfl, hlive, ?_, ?_⟩
  · obtain ⟨base, hbase, -, hresumption, -, -⟩ := hround "b*" 1
    obtain rfl : [115, 0] = base := Except.ok.inj (Eq.trans (by cbv) hbase)
    rw [hresumption.clear (of_decide_eq_true (by cbv))]
    cbv
  · obtain ⟨base, hbase, -, hresumption, -, -⟩ := hround "c*" 1
    obtain rfl : [115, 0] = base := Except.ok.inj (Eq.trans (by cbv) hbase)
    exact hresumption.blocked (of_decide_eq_true (by cbv))

/-- After a round that examined the first member, a round for the third finds nothing: the second
stands in between. -/
theorem round_stops_before_range :
    (threeLetters.scan letters 0 "*" 1).1 = .ok ⟨1, [("a", ())]⟩ ∧
      (threeLetters.scan letters 0 "*" 1).2.cursors.key? 1 = some [115, 0, 97] ∧
      letters.pageAfter (threeLetters.scan letters 0 "*" 1).2 [115, 0] [115, 0, 97] "c*" 10 =
        .ok ⟨0, [("c", ())]⟩ ∧
      ((threeLetters.scan letters 0 "*" 1).2.scan letters 1 "c*" 10).1 = .ok ⟨0, []⟩ := by
  refine ⟨?_, ?_, ?_, ?_⟩ <;> cbv

end Store

end KeyedRelations
