import KeyedRelations.Proofs.Scan.Stored
import KeyedRelations.Selection

/-!
# Scans of whole collections

A client that drains a scan of a store that nobody else changes gets the matching records
of the collection in the order of their names, and needs no more rounds than there are
records to be examined and one.  What it gets does not depend on the size of its rounds.
-/

namespace KeyedRelations

/-! ### What a scan under way has passed -/

/-- In an ascending list, what lies up to a place and what lies between it and a later one
make up what lies up to the later one. -/
theorem filter_append_filter_of_upTo {α : Type} {p q : α → Bool} {l : List α}
    (hupTo : l.Pairwise fun x y => p y = true → p x = true)
    (hmono : ∀ x, p x = true → q x = true) :
    l.filter p ++ l.filter (fun x => !p x && q x) = l.filter q := by
  have hq : (l.filter q).Pairwise fun x y => p y = true → p x = true := hupTo.filter q
  have hparts := List.takeWhile_append_dropWhile (p := p) (l := l.filter q)
  rw [takeWhile_eq_filter_of_upTo hq, dropWhile_eq_filter_of_upTo hq, List.filter_filter,
    List.filter_filter] at hparts
  rw [← hparts]
  congr 1
  refine List.filter_congr fun x _ => ?_
  cases hp : p x with
  | false => rfl
  | true => simp [hmono x hp]

namespace Collection

variable {c : Collection} {t : Trees} {base : Key} {pattern : String}

theorem shown_append (c : Collection) (pattern : String) (found more : Records c.kind) :
    c.shown pattern (found ++ more) = c.shown pattern found ++ c.shown pattern more := by
  simp [shown]

/-- Records shown in the order of their names are shown once each. -/
theorem nodup_shown {found : Records c.kind}
    (h : found.Pairwise fun r r' => Utf8.bytes r.1 < Utf8.bytes r'.1) :
    ((c.shown pattern found).map (·.1)).Nodup := by
  refine List.pairwise_map.mpr ((shown_ascending h).imp fun hlt heq => ?_)
  rw [heq] at hlt
  exact KeyOrder.irrefl _ hlt

/-- Collecting what is shown of records that go on in the order of their names. -/
theorem addNew_shown (pattern : String) {found more : Records c.kind}
    (h : (found ++ more).Pairwise fun r r' => Utf8.bytes r.1 < Utf8.bytes r'.1) :
    addNew (c.shown pattern found) (c.shown pattern more) = c.shown pattern (found ++ more) := by
  rw [shown_append]
  apply addNew_eq_append
  rw [← shown_append]
  exact nodup_shown h

/-- The records of a collection that a start has passed. -/
def passed (c : Collection) (t : Trees) (base : Key) (bound : Store.Bound) : Records c.kind :=
  (c.records t).filter fun r => bound.excludes (base ++ Utf8.bytes r.1)

/-- The records of a collection that a start has not passed. -/
def ahead (c : Collection) (t : Trees) (base : Key) (bound : Store.Bound) : Records c.kind :=
  (c.records t).filter fun r => !bound.excludes (base ++ Utf8.bytes r.1)

theorem passed_ascending (c : Collection) (t : Trees) (base : Key) (bound : Store.Bound) :
    (c.passed t base bound).Pairwise fun r r' => Utf8.bytes r.1 < Utf8.bytes r'.1 :=
  (c.records_ascending t).filter _

/-- What a start has passed is a lower part of the records. -/
theorem records_upTo (c : Collection) (t : Trees) (base : Key) (bound : Store.Bound) :
    (c.records t).Pairwise fun r r' => bound.excludes (base ++ Utf8.bytes r'.1) = true →
      bound.excludes (base ++ Utf8.bytes r.1) = true :=
  (c.records_ascending t).imp fun hlt hexcludes =>
    Store.Bound.excludes_of_lt (append_lt_append_left_iff.mpr hlt) hexcludes

theorem passed_append_ahead (c : Collection) (t : Trees) (base : Key) (bound : Store.Bound) :
    c.passed t base bound ++ c.ahead t base bound = c.records t := by
  have h := filter_append_filter_of_upTo (q := fun _ => true) (c.records_upTo t base bound)
    (fun _ _ => rfl)
  simpa [passed, ahead] using h

/-- Going on to a record that lies ahead passes what lies between. -/
theorem passed_append_between {bound : Store.Bound} {last : String × c.kind.Payload}
    (hlast : last ∈ c.ahead t base bound) :
    c.passed t base bound ++ (c.records t).filter (fun r =>
        !bound.excludes (base ++ Utf8.bytes r.1) &&
          (Store.Bound.after (base ++ Utf8.bytes last.1)).excludes (base ++ Utf8.bytes r.1)) =
      c.passed t base (.after (base ++ Utf8.bytes last.1)) := by
  have hnot : bound.excludes (base ++ Utf8.bytes last.1) = false := by
    simpa using (List.mem_filter.mp hlast).2
  exact filter_append_filter_of_upTo (c.records_upTo t base bound) fun r hr =>
    Store.Bound.after_excludes hnot hr

/-- Nothing that matches stands before the range of a scan. -/
theorem shown_passed_start (c : Collection) (t : Trees) (base : Key) (pattern : String) :
    c.shown pattern (c.passed t base (.atOrAfter (Store.rangeOf base pattern))) = [] := by
  rw [List.eq_nil_iff_forall_not_mem]
  intro x hx
  obtain ⟨payload, hmem, haccepts, -⟩ := mem_shown_iff.mp hx
  have hbefore := (List.mem_filter.mp hmem).2
  exact not_lt_of_isPrefix (Store.rangeOf_isPrefix haccepts base)
    (by simpa [Store.Bound.excludes] using hbefore)

/-- All records ahead lie in the range of all keys. -/
theorem ahead_eq_candidates (c : Collection) (t : Trees) (base : Key) (bound : Store.Bound) :
    c.ahead t base bound = c.candidates t base bound [] := by
  simp [ahead, candidates]

/-- A start that lies ahead leaves fewer records ahead. -/
theorem length_ahead_lt {bound : Store.Bound} {last : String × c.kind.Payload}
    (hlast : last ∈ c.ahead t base bound) :
    (c.ahead t base (.after (base ++ Utf8.bytes last.1))).length <
      (c.ahead t base bound).length := by
  simp only [ahead_eq_candidates] at hlast ⊢
  obtain ⟨before, after, hsplit⟩ := List.append_of_mem hlast
  rw [candidates_after hsplit, hsplit, List.length_append, List.length_cons]
  omega

end Collection

/-! ### Draining -/

/-- The cursor that was just issued goes on behind its key, and is closed by that. -/
theorem Store.resume?_issue (cursors : Cursors) (key range : Key) :
    ∃ after, Store.resume? (cursors.issue key).2 cursors.next range = some (.after key, after) ∧
      (cursors.opened = [] → after.opened = []) :=
  ⟨_, resume?_of_key? (Cursors.key?_issue_self cursors key) (Nat.succ_ne_zero _) range,
    Cursors.opened_without_issue key⟩

theorem Paging.drain_of_done {σ ε α : Type} (fetch : Nat → σ → Except ε (Page (String × α)) × σ)
    (n : Nat) {paging : Paging} (h : paging.cursor = .done) (found : List (String × α)) (s : σ) :
    paging.drain fetch n found s = (some (.ok found), s) := by
  cases n <;> simp [Paging.drain, Paging.next, h, ScanCursor.isDone, ScanCursor.position?]

section Drain

variable {c : Collection} {t : Trees} {base : Key} {pattern : String}

/-- A scan of a sound collection that is under way finds the rest of it, if it may have more
rounds than there are records ahead. -/
theorem Paging.drain_of_sound (hsound : c.Sound t) (hbase : c.base = .ok base) (count : Nat)
    {n : Nat} {paging : Paging} {cursors resumed : Cursors} {cursor : Nat} {bound : Store.Bound}
    (hposition : paging.cursor.position? = some cursor)
    (hresume : Store.resume? cursors cursor (Store.rangeOf base pattern) = some (bound, resumed))
    (hpast : bound.Past (Store.rangeOf base pattern))
    (hn : (c.ahead t base bound).length < n) :
    ∃ after, paging.drain (fun cursor => Store.perform (.scan c cursor pattern count)) n
        (c.shown pattern (c.passed t base bound)) ⟨t, cursors⟩ =
      (some (.ok (c.shown pattern (c.records t))), ⟨t, after⟩) := by
  induction n generalizing paging cursors resumed cursor bound with
  | zero => omega
  | succ n ih =>
      have hround := Store.scan_round ⟨t, cursors⟩ hsound hbase hresume hpast count
      rw [Paging.drain, Paging.next, hposition]
      dsimp only [Store.perform]
      rcases hround with hscan | ⟨last, hlast, hscan⟩
      · -- the round was the last, and answered all that lay ahead
        have hall := c.passed_append_ahead t base bound
        have hnew : addNew (c.shown pattern (c.passed t base bound))
            (c.shown pattern (c.ahead t base bound)) = c.shown pattern (c.records t) := by
          rw [Collection.addNew_shown pattern (hall ▸ c.records_ascending t), hall]
        refine ⟨resumed, ?_⟩
        rw [hscan]
        dsimp only
        rw [Paging.drain_of_done _ _ (by rfl)]
        exact congrArg (fun found => (some (Except.ok found), _)) hnew
      · -- the next round starts behind `last`, which lay ahead
        obtain ⟨hmem, hcandidate⟩ := List.mem_filter.mp hlast
        rw [Bool.and_eq_true, List.isPrefixOf_iff_prefix] at hcandidate
        have hahead : last ∈ c.ahead t base bound := List.mem_filter.mpr ⟨hmem, hcandidate.1⟩
        have hnext := Collection.passed_append_between hahead
        have hsorted := c.passed_ascending t base (.after (base ++ Utf8.bytes last.1))
        rw [← hnext] at hsorted
        have hnew := Collection.addNew_shown pattern hsorted
        rw [hnext] at hnew
        obtain ⟨afterResume, hissued, -⟩ := Store.resume?_issue resumed
          (base ++ Utf8.bytes last.1) (Store.rangeOf base pattern)
        have hfewer := Collection.length_ahead_lt hahead
        have hanswered : (paging.answered resumed.next).cursor.position? = some resumed.next := rfl
        obtain ⟨after, hrest⟩ := ih hanswered hissued (Store.Bound.past_after hcandidate.2)
          (by omega)
        refine ⟨after, ?_⟩
        rw [hscan]
        dsimp only
        rw [hnew]
        exact hrest

end Drain

/-! ### Whole collections -/

/-- A collection has no more records than the store has entries. -/
theorem Collection.length_records_le (c : Collection) (t : Trees) :
    (c.records t).length ≤ t.size := by
  have htree : (t.tree c.kind).size ≤ t.size := by
    cases c.kind <;> simp only [Trees.tree, Trees.size] <;> omega
  cases hbase : c.base with
  | error e => simp [records_of_base_error hbase]
  | ok base =>
      rw [records_of_base hbase]
      exact (List.length_filterMap_le _ _).trans htree

namespace Program

variable {c : Collection} {t : Trees} {base : Key}

/-- **A scan of a sound collection comes to the end** and shows what matches, by rounds of
any size. -/
theorem yields_scan (hsound : c.Sound t) (hbase : c.base = .ok base) (pattern : String)
    (count : Nat) :
    Yields t (scan ⟨c, pattern, count⟩) (c.shown pattern (c.records t)) := by
  intro cursors
  have hrounds : (c.ahead t base (.atOrAfter (Store.rangeOf base pattern))).length < t.size + 1 :=
    Nat.lt_succ_of_le ((List.length_filter_le _ _).trans (c.length_records_le t))
  have hstart : Paging.start.cursor.position? = some 0 := rfl
  have hresume := Store.resume?_start cursors (Store.rangeOf base pattern)
  obtain ⟨after, hdrain⟩ := Paging.drain_of_sound hsound hbase count hstart hresume
    (Store.Bound.past_atOrAfter _) hrounds
  rw [c.shown_passed_start] at hdrain
  refine ⟨after, ?_⟩
  simp only [scan, run, Store.handler]
  rw [hdrain]

/-- Reading names one by one finds the records that they stand for. -/
theorem yields_readAll (hsound : c.Sound t) (hbase : c.base = .ok base)
    (found : Records c.kind) (names : List String) :
    Yields t (c.readAll found names) (found ++
      names.filterMap fun name => (c.held? t name).map fun payload => (name, payload)) := by
  induction names generalizing found with
  | nil =>
      rw [List.filterMap_nil, List.append_nil]
      exact .done found
  | cons name names ih =>
      refine .read (fun cursors => hsound.read_eq hbase cursors name) ?_
      convert ih _ using 1
      cases hheld : c.held? t name <;> simp [hheld]

/-- Records are what is found under their names. -/
theorem filterMap_held?_names {found : Records c.kind} (h : ∀ r ∈ found, r ∈ c.records t) :
    (found.names.filterMap fun name => (c.held? t name).map fun payload => (name, payload)) =
      found := by
  rw [Records.names, List.filterMap_map]
  conv_rhs => rw [← List.filterMap_some (l := found)]
  refine List.filterMap_congr fun r hr => ?_
  simp [Collection.held?_eq_some_iff.mpr (h r hr)]

/-- **Scanning a sound collection for records** finds those whose names match, in the order
of their names, by rounds of any size. -/
theorem yields_scanAll (hsound : c.Sound t) (hbase : c.base = .ok base) (pattern : String)
    (count : Nat) :
    Yields t (c.scanAll pattern count)
      ((c.records t).filter fun r => Glob.accepts pattern r.1) := by
  have hscan := yields_scan hsound hbase pattern count
  obtain ⟨kind, container⟩ := c
  cases kind with
  | list =>
      refine hscan.bind ?_
      have hnames : ((Collection.shown ⟨.list, container⟩ pattern
            (Collection.records ⟨.list, container⟩ t)).map (·.1)) =
          Records.names ((Collection.records ⟨.list, container⟩ t).filter
            fun r => Glob.accepts pattern r.1) := by
        simp [Collection.shown, Records.names]
      have hread := yields_readAll hsound hbase [] (Records.names
        ((Collection.records ⟨.list, container⟩ t).filter fun r => Glob.accepts pattern r.1))
      rw [filterMap_held?_names fun r hr => (List.mem_filter.mp hr).1] at hread
      rw [hnames]
      exact hread
  | set | hash | sortedSet =>
      simpa [Collection.scanAll, Collection.shown, Structure.item] using hscan

end Program

end KeyedRelations
