import KeyedRelations.Proofs.Scan.Shared
import KeyedRelations.Proofs.Scan.Whole

/-!
# A scan of a store that does not change

When nobody does anything between the rounds of a scan, its course is known before it starts.
The scan examines the records whose names start with the literal prefix of its pattern, its
candidates, and every round but the last takes as many of them as it may.  The last takes fewer,
perhaps none, so there is one round more than pages can be filled (`SharedScan.course`).

`SharedScan.Midway` says where the scan stands after a number of rounds: the candidates fall into
those that were taken and those that still lie ahead.  A round that can be filled keeps this
(`Midway.round`), and one that cannot ends the scan (`Midway.finish`).  Which cursors are open does
not matter, since the cursor of the next round is the one that was just issued.
-/

namespace KeyedRelations

/-! ### Candidates -/

namespace ScanRequest

variable {r : ScanRequest} {t : Trees} {base : Key}

/-- How many records a round may examine. -/
def limit (r : ScanRequest) : Nat := max r.count 1

theorem limit_pos (r : ScanRequest) : 0 < r.limit := by
  rw [limit]
  omega

/-- The records that a scan has to examine: those whose names start with the literal prefix of its
pattern. -/
def candidates (r : ScanRequest) (t : Trees) : Records r.collection.kind :=
  (r.collection.records t).filter fun found =>
    (Utf8.bytes (Glob.literalPrefix r.pattern)).isPrefixOf (Utf8.bytes found.1)

/-- Without keys there are none. -/
theorem candidates_of_base_error {e : StoreError} (hbase : r.collection.base = .error e)
    (t : Trees) : r.candidates t = [] := by
  rw [candidates, Collection.records_of_base_error hbase, List.filter_nil]

/-- They lie ahead of the first round. -/
theorem candidates_of_start (t : Trees) (base : Key) :
    r.collection.candidates t base (.atOrAfter (Store.rangeOf base r.pattern))
      (Store.rangeOf base r.pattern) = r.candidates t := by
  refine List.filter_congr fun found _ => ?_
  rw [Store.Bound.atOrAfter_and_isPrefixOf, Bool.eq_iff_iff, List.isPrefixOf_iff_prefix,
    List.isPrefixOf_iff_prefix]
  exact List.prefix_append_right_inj base

/-- Nothing else matches. -/
theorem shown_candidates (r : ScanRequest) (t : Trees) :
    r.collection.shown r.pattern (r.candidates t) =
      r.collection.shown r.pattern (r.collection.records t) := by
  rw [Collection.shown, Collection.shown, candidates, List.filter_filter]
  congr 1
  refine List.filter_congr fun found _ => ?_
  cases haccepts : Glob.accepts r.pattern found.1 with
  | false => rfl
  | true => simpa using Glob.literalPrefix_isPrefix haccepts

end ScanRequest

namespace SharedScan

variable {r : ScanRequest} {w : SharedScan r} {t : Trees} {base : Key} {rounds : Nat}

/-! ### Rounds -/

/-- A round that fails only if the collection has no keys, and answers no more than it may
examine. -/
def Fits (r : ScanRequest) (round : Store × Except StoreError (List r.Found)) : Prop :=
  (answered round).length ≤ r.limit ∧ ∀ e, round.2 = .error e → r.collection.base = .error e

/-- A scan that has filled a number of pages. -/
structure Midway (w : SharedScan r) (t : Trees) (base : Key) (rounds : Nat) : Prop where
  trees : w.store.trees = t
  /-- The next round goes on to the candidates that were not taken. -/
  resumes : ∃ cursor bound resumed, w.paging.cursor.position? = some cursor ∧
    Store.resume? w.store.cursors cursor (Store.rangeOf base r.pattern) = some (bound, resumed) ∧
    bound.Past (Store.rangeOf base r.pattern) ∧
    r.collection.candidates t base bound (Store.rangeOf base r.pattern) =
      (r.candidates t).drop (rounds * r.limit)
  count : w.rounds.length = rounds
  fits : ∀ round ∈ w.rounds, Fits r round
  found : w.found = r.collection.shown r.pattern ((r.candidates t).take (rounds * r.limit))

/-- A scan that is over after a number of rounds. -/
structure Over (w : SharedScan r) (t : Trees) (rounds : Nat) : Prop where
  trees : w.store.trees = t
  done : w.paging.cursor = .done
  count : w.rounds.length = rounds
  fits : ∀ round ∈ w.rounds, Fits r round
  found : w.found = r.collection.shown r.pattern (r.candidates t)

theorem Midway.start (r : ScanRequest) (st : Store) (base : Key) :
    Midway (start r st) st.trees base 0 where
  trees := rfl
  resumes := ⟨0, _, _, rfl, Store.resume?_start _ _, Store.Bound.past_atOrAfter _, by
    rw [r.candidates_of_start, Nat.zero_mul, List.drop_zero]⟩
  count := rfl
  fits := by simp [SharedScan.start]
  found := by simp [SharedScan.start, SharedScan.found, Collection.shown]

theorem Midway.ne_done (h : Midway w t base rounds) : w.paging.cursor ≠ .done := by
  intro hdone
  obtain ⟨cursor, -, -, hposition, -⟩ := h.resumes
  rw [hdone] at hposition
  cases hposition

/-- No more is shown than was found. -/
theorem fits_shown (st : Store) {taken : Records r.collection.kind}
    (hfew : taken.length ≤ r.limit) :
    Fits r (st, .ok (r.collection.shown r.pattern taken)) := by
  refine ⟨?_, fun e he => by cases he⟩
  rw [answered, Collection.shown, List.length_map]
  exact (List.length_filter_le _ _).trans hfew

/-- What holds of all rounds so far and of the next holds of all. -/
theorem fits_append {more : Store × Except StoreError (List r.Found)}
    (h : ∀ round ∈ w.rounds, Fits r round) (hmore : Fits r more) :
    ∀ round ∈ w.rounds ++ [more], Fits r round := by
  intro round hround
  rcases List.mem_append.mp hround with hround | hround
  · exact h round hround
  · rw [List.mem_singleton.mp hround]
    exact hmore

/-- A round that finds enough candidates fills its page and goes on behind the last of them. -/
theorem Midway.round (h : Midway w t base rounds) (hsound : r.collection.Sound t)
    (hbase : r.collection.base = .ok base)
    (hmany : (rounds + 1) * r.limit ≤ (r.candidates t).length) :
    Midway w.advanced t base (rounds + 1) := by
  obtain ⟨cursor, bound, resumed, hposition, hresume, hpast, hahead⟩ := h.resumes
  obtain rfl := h.trees
  have hlimit : (rounds + 1) * r.limit = rounds * r.limit + r.limit := Nat.succ_mul ..
  have henough : max r.count 1 ≤ (r.collection.candidates w.store.trees base bound
      (Store.rangeOf base r.pattern)).length := by
    rw [hahead, List.length_drop]
    exact Nat.le_sub_of_add_le (by rw [Nat.add_comm, ← ScanRequest.limit, ← hlimit]; exact hmany)
  obtain ⟨before, last, after, hsplit, hcount, hscan⟩ :=
    Store.scan_of_many w.store hsound hbase hresume hpast henough
  have hrange : Store.rangeOf base r.pattern <+: base ++ Utf8.bytes last.1 := by
    have hlast : last ∈ r.collection.candidates w.store.trees base bound
        (Store.rangeOf base r.pattern) := by simp [hsplit]
    have hboth := (List.mem_filter.mp hlast).2
    rw [Bool.and_eq_true, List.isPrefixOf_iff_prefix] at hboth
    exact hboth.2
  have hleft : (r.candidates w.store.trees).drop (rounds * r.limit) =
      (before ++ [last]) ++ after := by
    rw [← hahead, hsplit, List.append_assoc, List.singleton_append]
  have htaken : (before ++ [last]).length = r.limit := by
    rw [List.length_append, List.length_singleton, ScanRequest.limit, hcount]
  obtain ⟨afterResume, hissued, -⟩ := Store.resume?_issue resumed (base ++ Utf8.bytes last.1)
    (Store.rangeOf base r.pattern)
  rw [advanced_of_ok hposition hscan]
  refine ⟨rfl, ⟨_, _, _, rfl, hissued, Store.Bound.past_after hrange, ?_⟩, ?_, ?_, ?_⟩
  · rw [hlimit, ← List.drop_drop, hleft, List.drop_left' htaken]
    exact Collection.candidates_after hsplit
  · rw [List.length_append, h.count, List.length_singleton]
  · exact fits_append h.fits (fits_shown _ (Nat.le_of_eq htaken))
  · rw [found_of_rounds rfl, h.found, ← Collection.shown_append, hlimit, List.take_add, hleft,
      List.take_left' htaken]

/-- A round that finds fewer candidates shows what matches among them, and the scan is over. -/
theorem Midway.finish (h : Midway w t base rounds) (hsound : r.collection.Sound t)
    (hbase : r.collection.base = .ok base)
    (hfew : (r.candidates t).length < (rounds + 1) * r.limit) :
    Over w.advanced t (rounds + 1) := by
  obtain ⟨cursor, bound, resumed, hposition, hresume, hpast, hahead⟩ := h.resumes
  obtain rfl := h.trees
  have hleft : ((r.candidates w.store.trees).drop (rounds * r.limit)).length < r.limit := by
    have hlimit : (rounds + 1) * r.limit = rounds * r.limit + r.limit := Nat.succ_mul ..
    have hpos := r.limit_pos
    rw [List.length_drop]
    omega
  have hscan := Store.scan_of_few w.store hsound hbase hresume hpast (by rwa [hahead])
  rw [hahead] at hscan
  rw [advanced_of_ok hposition hscan]
  refine ⟨rfl, rfl, ?_, fits_append h.fits (fits_shown _ (Nat.le_of_lt hleft)), ?_⟩
  · rw [List.length_append, h.count, List.length_singleton]
  · rw [found_of_rounds rfl, h.found, ← Collection.shown_append, List.take_append_drop]

/-- Without keys the first round fails, and the scan is over. -/
theorem over_of_base_error {e : StoreError} (hbase : r.collection.base = .error e) (st : Store) :
    Over (SharedScan.start r st).advanced st.trees 1 := by
  have hposition : (SharedScan.start r st).paging.cursor.position? = some 0 := rfl
  have hscan : st.scan r.collection 0 r.pattern r.count = (.error e, st) := by
    rw [Store.scan, hbase]
  rw [advanced_of_error hposition hscan]
  refine ⟨rfl, rfl, rfl, ?_, ?_⟩
  · intro round hround
    rw [List.mem_singleton.mp hround]
    refine ⟨Nat.zero_le _, fun e' he' => ?_⟩
    rw [hbase, Except.error.inj he']
  · rw [ScanRequest.candidates_of_base_error hbase]
    rfl

/-! ### The course of a scan -/

/-- The scan after a number of rounds with nothing in between. -/
def alone (r : ScanRequest) (st : Store) (rounds : Nat) : SharedScan r :=
  advanced^[rounds] (start r st)

theorem alone_succ (r : ScanRequest) (st : Store) (rounds : Nat) :
    alone r st (rounds + 1) = (alone r st rounds).advanced :=
  Function.iterate_succ_apply' advanced rounds (start r st)

/-- A scan stays over. -/
theorem alone_of_done {st : Store} (hdone : (alone r st rounds).paging.cursor = .done) {k : Nat}
    (hk : rounds ≤ k) : alone r st k = alone r st rounds := by
  induction k, hk using Nat.le_induction with
  | base => rfl
  | succ k _ ih =>
      have hposition : (alone r st rounds).paging.cursor.position? = none := by rw [hdone]; rfl
      rw [alone_succ, ih, advanced_of_done hposition]

section Course

variable {st : Store} (hsound : r.collection.Sound st.trees)

include hsound

/-- As many pages as candidates can fill are filled. -/
theorem midway_alone (hbase : r.collection.base = .ok base) {k : Nat}
    (hk : k ≤ (r.candidates st.trees).length / r.limit) :
    Midway (alone r st k) st.trees base k := by
  induction k with
  | zero => exact Midway.start r st base
  | succ k ih =>
      rw [alone_succ]
      exact (ih (Nat.le_of_succ_le hk)).round hsound hbase
        ((Nat.le_div_iff_mul_le r.limit_pos).mp hk)

theorem exists_midway {k : Nat} (hk : k ≤ (r.candidates st.trees).length / r.limit) :
    ∃ base, Midway (alone r st k) st.trees base k := by
  cases hbase : r.collection.base with
  | ok base => exact ⟨base, midway_alone hsound hbase hk⟩
  | error e =>
      rw [ScanRequest.candidates_of_base_error hbase, List.length_nil, Nat.zero_div] at hk
      obtain rfl := Nat.le_zero.mp hk
      exact ⟨[], Midway.start r st []⟩

/-- The next round is the last. -/
theorem over_alone : Over (alone r st ((r.candidates st.trees).length / r.limit + 1)) st.trees
    ((r.candidates st.trees).length / r.limit + 1) := by
  cases hbase : r.collection.base with
  | ok base =>
      rw [alone_succ]
      exact (midway_alone hsound hbase (Nat.le_refl _)).finish hsound hbase
        (Nat.lt_mul_of_div_lt (Nat.lt_succ_self _) r.limit_pos)
  | error e =>
      rw [ScanRequest.candidates_of_base_error hbase, List.length_nil, Nat.zero_div]
      exact over_of_base_error hbase st

/-- A scan is midway as long as it can fill pages, and over afterwards. -/
theorem midway_or_over (k : Nat) :
    (k ≤ (r.candidates st.trees).length / r.limit ∧
      ∃ base, Midway (alone r st k) st.trees base k) ∨
    ((r.candidates st.trees).length / r.limit < k ∧
      Over (alone r st k) st.trees ((r.candidates st.trees).length / r.limit + 1)) := by
  have hover := over_alone hsound
  rcases Nat.lt_or_ge ((r.candidates st.trees).length / r.limit) k with hlate | hearly
  · refine Or.inr ⟨hlate, ?_⟩
    rw [alone_of_done hover.done hlate]
    exact hover
  · exact Or.inl ⟨hearly, exists_midway hsound hearly⟩

end Course

/-- How a scan goes that nobody interferes with. -/
structure Course (r : ScanRequest) (st : Store) : Prop where
  /-- It is over after one round more than its candidates fill pages, and not before. -/
  ends : ∀ k, (alone r st k).paging.cursor = .done ↔ (r.candidates st.trees).length / r.limit < k
  /-- Up to then every step is a round. -/
  count : ∀ k, (alone r st k).rounds.length = min k ((r.candidates st.trees).length / r.limit + 1)
  /-- The store does not change. -/
  trees : ∀ k, (alone r st k).store.trees = st.trees
  /-- No page has more items than its round may examine, and a round fails only if the collection
  has no keys. -/
  fits : ∀ k, ∀ round ∈ (alone r st k).rounds, (answered round).length ≤ r.limit ∧
    ∀ e, round.2 = .error e → r.collection.base = .error e
  /-- The pages make up one list, whatever their size: all records that match. -/
  found : ∀ k, (r.candidates st.trees).length / r.limit < k →
    (alone r st k).found = r.collection.shown r.pattern (r.collection.records st.trees)
  complete : ∀ item, item ∈ r.collection.shown r.pattern (r.collection.records st.trees) ↔
    Glob.accepts r.pattern item.1 = true ∧ Shows r.collection st item
  /-- They stand in the order of their names' bytes. -/
  ascending : (r.collection.shown r.pattern (r.collection.records st.trees)).Pairwise
    fun a b => Utf8.bytes a.1 < Utf8.bytes b.1

/-- **A scan of a store that does not change** takes one round more than pages can be filled by the
records whose names start with the literal prefix of its pattern.  This is so for every collection,
pattern and page size, and whatever cursors are open. -/
theorem course (r : ScanRequest) (st : Store) (hsound : r.collection.Sound st.trees) :
    Course r st where
  ends k := by
    rcases midway_or_over hsound k with ⟨hearly, base, hmidway⟩ | ⟨hlate, hover⟩
    · simp [hmidway.ne_done, Nat.not_lt.mpr hearly]
    · simp [hover.done, hlate]
  count k := by
    rcases midway_or_over hsound k with ⟨hearly, base, hmidway⟩ | ⟨hlate, hover⟩
    · rw [hmidway.count]
      omega
    · rw [hover.count]
      omega
  trees k := by
    rcases midway_or_over hsound k with ⟨-, base, hmidway⟩ | ⟨-, hover⟩
    · exact hmidway.trees
    · exact hover.trees
  fits k := by
    rcases midway_or_over hsound k with ⟨-, base, hmidway⟩ | ⟨-, hover⟩
    · exact hmidway.fits
    · exact hover.fits
  found k hk := by
    rcases midway_or_over hsound k with ⟨hearly, -⟩ | ⟨-, hover⟩
    · omega
    · rw [hover.found, r.shown_candidates]
  complete item := by
    rw [Collection.mem_shown_iff]
    constructor
    · rintro ⟨payload, hrecord, haccepts, hitem⟩
      exact ⟨haccepts, payload, Collection.mem_records_iff.mp hrecord, hitem⟩
    · rintro ⟨haccepts, payload, hread, hitem⟩
      exact ⟨payload, Collection.mem_records_iff.mpr hread, haccepts, hitem⟩
  ascending := Collection.shown_ascending (r.collection.records_ascending _)

/-- The two members, in a store with as many cursors open as are kept. -/
def crowdedMembers : Store :=
  ⟨twoMembers.trees, ⟨Cursors.capacity, (List.range Cursors.capacity).map fun n => (n + 1, [])⟩⟩

theorem course_crowdedMembers :
    members.Sound crowdedMembers.trees ∧
      crowdedMembers.cursors.opened.length = Cursors.capacity ∧
      (alone ⟨members, "m*", 1⟩ crowdedMembers 2).paging.cursor ≠ .done ∧
      (alone ⟨members, "m*", 1⟩ crowdedMembers 3).paging.cursor = .done ∧
      (alone ⟨members, "m*", 1⟩ crowdedMembers 3).found.map (·.1) = ["m1", "m2"] := by
  have htrees : crowdedMembers.trees = twoMembers.trees := rfl
  have hsound : members.Sound twoMembers.trees := ((Collection.sound_empty _).perform _).perform _
  rw [← htrees] at hsound
  have hcourse := course ⟨members, "m*", 1⟩ crowdedMembers hsound
  have hpages : (ScanRequest.candidates ⟨members, "m*", 1⟩ crowdedMembers.trees).length /
      ScanRequest.limit ⟨members, "m*", 1⟩ = 2 := by
    rw [htrees]
    cbv
  refine ⟨hsound, by simp [crowdedMembers], ?_, ?_, ?_⟩
  · rw [ne_eq, hcourse.ends, hpages]
    decide
  · rw [hcourse.ends, hpages]
    decide
  · rw [hcourse.found 3 (by rw [hpages]; decide), htrees]
    cbv

end SharedScan

end KeyedRelations
