import KeyedRelations.Proofs.Glob.LiteralPrefix
import KeyedRelations.Proofs.Store.Contents

/-!
# One round of a scan

A round starts behind some keys and examines records in key order.  The keys that it
may examine are contiguous, so stopping at the first key outside the range loses
nothing, and every name that matches lies in the range.  `scan_round` says what a
round over a sound collection answers: the matching records behind its start, either
all of them or those up to the last one that it examined, where the next round starts.
-/

namespace KeyedRelations

namespace Store

/-! ### Where a round starts -/

/-- The keys before the start of a round are a lower part of all keys. -/
theorem Bound.excludes_of_lt {bound : Bound} {a b : Key} (hlt : a < b)
    (hb : bound.excludes b = true) : bound.excludes a = true := by
  cases bound with
  | atOrAfter start =>
      simp only [excludes, decide_eq_true_eq] at hb ⊢
      exact List.lt_trans hlt hb
  | after start =>
      simp only [excludes, Bool.not_eq_true', decide_eq_false_iff_not] at hb ⊢
      exact fun h => hb (List.lt_trans h hlt)

/-- A key before the start of a round stands before every key that is not. -/
theorem Bound.lt_of_excludes {bound : Bound} {a b : Key} (ha : bound.excludes a = true)
    (hb : bound.excludes b = false) : a < b := by
  by_contra hab
  by_cases hba : b < a
  · simp [excludes_of_lt hba ha] at hb
  · rw [KeyOrder.eq_of_not_lt hab hba, hb] at ha
    cases ha

/-- Starting behind a key passes what stands before it. -/
theorem Bound.after_excludes_of_lt {key other : Key} (hlt : other < key) :
    (Bound.after key).excludes other = true := by
  simpa [excludes] using fun h => KeyOrder.irrefl _ (KeyOrder.trans h hlt)

/-- Starting behind a key that was not passed passes everything that was passed before. -/
theorem Bound.after_excludes {bound : Bound} {key other : Key} (hkey : bound.excludes key = false)
    (hother : bound.excludes other = true) : (Bound.after key).excludes other = true :=
  after_excludes_of_lt (lt_of_excludes hother hkey)

/-- The range of keys whose names can match a pattern. -/
abbrev rangeOf (base : Key) (pattern : String) : Key :=
  base ++ Utf8.bytes (Glob.literalPrefix pattern)

/-- A name that matches lies in the range. -/
theorem rangeOf_isPrefix {pattern name : String} (h : Glob.accepts pattern name = true)
    (base : Key) : rangeOf base pattern <+: base ++ Utf8.bytes name :=
  (List.prefix_append_right_inj base).mpr (Glob.literalPrefix_isPrefix h)

/-- A start at or behind the first key of a range. -/
def Bound.Past (bound : Bound) (range : Key) : Prop :=
  ∀ key, bound.excludes key = false → ¬ key < range

theorem Bound.past_atOrAfter (range : Key) : (Bound.atOrAfter range).Past range := by
  intro key hkey
  simpa [excludes] using hkey

/-- All of a range lies ahead of the first round. -/
theorem Bound.atOrAfter_and_isPrefixOf (range key : Key) :
    (!(Bound.atOrAfter range).excludes key && range.isPrefixOf key) = range.isPrefixOf key := by
  cases hrange : range.isPrefixOf key with
  | false => rw [Bool.and_false]
  | true =>
      have hpast := not_lt_of_isPrefix (List.isPrefixOf_iff_prefix.mp hrange)
      simp [excludes, hpast]

theorem Bound.past_after {range key : Key} (h : range <+: key) : (Bound.after key).Past range := by
  intro other hother hlt
  have hbehind : key < other := by simpa [excludes] using hother
  exact not_lt_of_isPrefix h (List.lt_trans hbehind hlt)

/-! ### Examined records -/

variable {α : Type} {entries : List (Key × α)} {bound : Bound} {range : Key}

/-- The entries that a round passes over are those before its start. -/
theorem dropWhile_eq_filter (hsorted : entries.Pairwise (·.1 < ·.1)) (bound : Bound) :
    (entries.dropWhile fun e => bound.excludes e.1) =
      entries.filter fun e => !bound.excludes e.1 :=
  dropWhile_eq_filter_of_upTo
    (hsorted.imp fun hlt hexcludes => Bound.excludes_of_lt hlt hexcludes)

/-- Where no entry lies between its start and its range, the entries that a round comes to before
the first key outside are all those behind the start and in the range. -/
theorem takeWhile_dropWhile_eq_filter (hsorted : entries.Pairwise (·.1 < ·.1))
    (hpast : ∀ e ∈ entries, bound.excludes e.1 = false → ¬ e.1 < range) :
    (entries.dropWhile fun e => bound.excludes e.1).takeWhile (fun e => range.isPrefixOf e.1) =
      entries.filter fun e => !bound.excludes e.1 && range.isPrefixOf e.1 := by
  have htake : (entries.filter fun e => !bound.excludes e.1).takeWhile
        (fun e => range.isPrefixOf e.1) =
      (entries.filter fun e => !bound.excludes e.1).filter fun e => range.isPrefixOf e.1 := by
    apply takeWhile_eq_filter_of_upTo
    refine (List.pairwise_filter.mpr (hsorted.imp_of_mem ?_))
    intro e e' hmem _ hlt he _ hrange
    by_contra hlacks
    rw [List.isPrefixOf_iff_prefix] at hrange hlacks
    exact not_isPrefix_of_lt (hpast e hmem (by simpa using he)) hlacks hlt hrange
  rw [dropWhile_eq_filter hsorted, htake, List.filter_filter]
  congr 1
  funext e
  exact Bool.and_comm _ _

/-- The entries that a round examines are the first of those behind its start and in its
range, wherever they stand. -/
theorem examine_eq_filter (hsorted : entries.Pairwise (·.1 < ·.1)) (hpast : bound.Past range)
    (limit : Nat) :
    examine entries bound range limit =
      (entries.filter fun e => !bound.excludes e.1 && range.isPrefixOf e.1).take limit := by
  rw [examine, takeWhile_dropWhile_eq_filter hsorted fun e _ => hpast e.1]

/-- Starting behind one of what lies ahead leaves what stood behind it. -/
theorem filter_after_of_ascending (key : α → Key) {l before after : List α} {last : α}
    (hsorted : l.Pairwise fun x y => key x < key y)
    (h : l.filter (fun x => !bound.excludes (key x) && range.isPrefixOf (key x)) =
      before ++ last :: after) :
    l.filter (fun x => !(Bound.after (key last)).excludes (key x) && range.isPrefixOf (key x)) =
      after := by
  have hlast : bound.excludes (key last) = false := by
    have hmem : last ∈ l.filter fun x => !bound.excludes (key x) && range.isPrefixOf (key x) := by
      simp [h]
    have hboth := (List.mem_filter.mp hmem).2
    rw [Bool.and_eq_true, Bool.not_eq_true'] at hboth
    exact hboth.1
  have hfilter :
      l.filter (fun x => !(Bound.after (key last)).excludes (key x) && range.isPrefixOf (key x)) =
        (before ++ last :: after).filter fun x => !(Bound.after (key last)).excludes (key x) := by
    rw [← h, List.filter_filter]
    refine List.filter_congr fun x _ => ?_
    cases hbound : bound.excludes (key x) with
    | false => simp
    | true => simp [Bound.after_excludes hlast hbound]
  have hparts := hsorted.filter fun x => !bound.excludes (key x) && range.isPrefixOf (key x)
  rw [h, List.pairwise_append, List.pairwise_cons] at hparts
  obtain ⟨-, ⟨hbehind, -⟩, hbefore⟩ := hparts
  have hlow : ∀ x ∈ before, ¬ (!(Bound.after (key last)).excludes (key x)) = true := by
    intro x hx
    simp [Bound.after_excludes_of_lt (hbefore x hx last List.mem_cons_self)]
  have hhigh : ∀ x ∈ after, (!(Bound.after (key last)).excludes (key x)) = true := by
    intro x hx
    simpa [Bound.excludes] using hbehind x hx
  have hself : (last :: after).filter (fun x => !(Bound.after (key last)).excludes (key x)) =
      after := by
    rw [List.filter_cons_of_neg (by simp [Bound.excludes]), List.filter_eq_self.mpr hhigh]
  rw [hfilter, List.filter_append, hself, List.filter_eq_nil_iff.mpr hlow, List.nil_append]

end Store

namespace Collection

variable {c : Collection} {t : Trees} {base range : Key} {bound : Store.Bound}

/-- The records of a collection behind a start and in a range. -/
def candidates (c : Collection) (t : Trees) (base : Key) (bound : Store.Bound) (range : Key) :
    Records c.kind :=
  (c.records t).filter fun r =>
    !bound.excludes (base ++ Utf8.bytes r.1) && range.isPrefixOf (base ++ Utf8.bytes r.1)

/-- Starting behind one of the candidates leaves those that stood behind it. -/
theorem candidates_after {before after : Records c.kind} {last : String × c.kind.Payload}
    (h : c.candidates t base bound range = before ++ last :: after) :
    c.candidates t base (.after (base ++ Utf8.bytes last.1)) range = after :=
  Store.filter_after_of_ascending (fun r : String × c.kind.Payload => base ++ Utf8.bytes r.1)
    ((c.records_ascending t).imp append_lt_append_left_iff.mpr) h

/-- What a scan shows of records: those whose names match. -/
def shown (c : Collection) (pattern : String) (found : Records c.kind) :
    List (String × c.kind.Item) :=
  (found.filter fun r => Glob.accepts pattern r.1).map fun r => (r.1, c.kind.item r.2)

theorem mem_shown_iff {pattern : String} {found : Records c.kind} {x : String × c.kind.Item} :
    x ∈ c.shown pattern found ↔
      ∃ payload, (x.1, payload) ∈ found ∧ Glob.accepts pattern x.1 = true ∧
        c.kind.item payload = x.2 := by
  obtain ⟨name, item⟩ := x
  constructor
  · intro h
    obtain ⟨r, hr, heq⟩ := List.mem_map.mp h
    obtain ⟨rfl, rfl⟩ := Prod.mk.inj heq
    rw [List.mem_filter] at hr
    exact ⟨r.2, hr.1, hr.2, rfl⟩
  · rintro ⟨payload, hmem, haccepts, rfl⟩
    exact List.mem_map.mpr ⟨(name, payload), List.mem_filter.mpr ⟨hmem, haccepts⟩, rfl⟩

/-- What is shown keeps the order of the records. -/
theorem shown_ascending {pattern : String} {found : Records c.kind}
    (h : found.Pairwise fun r r' => Utf8.bytes r.1 < Utf8.bytes r'.1) :
    (c.shown pattern found).Pairwise fun x y => Utf8.bytes x.1 < Utf8.bytes y.1 :=
  List.pairwise_map.mpr (h.filter _)

/-- The entries of a sound collection behind a start and in a range stand for its candidates. -/
theorem Sound.filter_eq (h : c.Sound t) (hbase : c.base = .ok base) (hrange : base <+: range)
    (bound : Store.Bound) :
    (t.tree c.kind).entries.filter (fun e => !bound.excludes e.1 && range.isPrefixOf e.1) =
      (c.candidates t base bound range).map (c.kind.entryOf base) := by
  have hwithin : (t.tree c.kind).entries.filter
        (fun e => !bound.excludes e.1 && range.isPrefixOf e.1) =
      ((t.tree c.kind).entries.filter fun e => base.isPrefixOf e.1).filter
        fun e => !bound.excludes e.1 && range.isPrefixOf e.1 := by
    rw [List.filter_filter]
    refine List.filter_congr fun e _ => ?_
    cases hprefix : range.isPrefixOf e.1 with
    | false => simp
    | true =>
        have : base.isPrefixOf e.1 = true := by
          rw [List.isPrefixOf_iff_prefix] at hprefix ⊢
          exact hrange.trans hprefix
        simp [this]
  rw [hwithin, h.entries_eq hbase, List.filter_map]
  rfl

/-- A round over a sound collection examines the first of its candidates. -/
theorem Sound.examine_eq (h : c.Sound t) (hbase : c.base = .ok base) (hrange : base <+: range)
    (hpast : bound.Past range) (limit : Nat) :
    Store.examine (t.tree c.kind).entries bound range limit =
      ((c.candidates t base bound range).take limit).map (c.kind.entryOf base) := by
  rw [Store.examine_eq_filter (t.tree c.kind).ascending hpast, h.filter_eq hbase hrange,
    List.map_take]

/-- Every record that a round examines can be shown. -/
theorem visitAll_entries (c : Collection) (base : Key) (pattern : String)
    (found : Records c.kind) :
    Store.visitAll c.kind base.length pattern (found.map (c.kind.entryOf base)) =
      .ok (c.shown pattern found) := by
  induction found with
  | nil => rfl
  | cons r found ih =>
      rw [List.map_cons, Store.visitAll, ih]
      cases haccepts : Glob.accepts pattern r.1 <;>
        simp [Store.visit, Structure.entryOf, shown, haccepts, Except.map]

/-- Records that match lie in the range of a scan, so the range does not decide what any
part of the candidates shows. -/
theorem shown_candidates (c : Collection) (t : Trees) (base : Key) (bound : Store.Bound)
    (pattern : String) (keep : String × c.kind.Payload → Bool) :
    c.shown pattern
        ((c.candidates t base bound (Store.rangeOf base pattern)).filter keep) =
      c.shown pattern
        ((c.records t).filter fun r => !bound.excludes (base ++ Utf8.bytes r.1) && keep r) := by
  simp only [shown, candidates, List.filter_filter]
  congr 1
  refine List.filter_congr fun r _ => ?_
  cases haccepts : Glob.accepts pattern r.1 with
  | false => rfl
  | true =>
      rw [List.isPrefixOf_iff_prefix.mpr (Store.rangeOf_isPrefix haccepts base)]
      cases keep r <;> simp

end Collection

/-! ### What a round answers -/

namespace Store

variable {c : Collection} {base : Key} {bound : Bound} {st : Store} {cursors : Cursors}
  {cursor : Nat} {pattern : String}

/-- A round shows what it examines, and fails at what cannot be shown. -/
theorem scan_of_resume (st : Store) (hbase : c.base = .ok base)
    (hresume : resume? st.cursors cursor (rangeOf base pattern) = some (bound, cursors))
    (count : Nat) {examined : List (Key × c.kind.Form)}
    (hexamined : examine (st.trees.tree c.kind).entries bound (rangeOf base pattern)
      (max count 1) = examined) :
    st.scan c cursor pattern count =
      match visitAll c.kind base.length pattern examined with
      | .error e => (.error e, { st with cursors })
      | .ok items =>
        (.ok ⟨(nextCursor cursors examined (max count 1)).1, items⟩,
          { st with cursors := (nextCursor cursors examined (max count 1)).2 }) := by
  cases hvisit : visitAll c.kind base.length pattern examined with
  | error e => simp only [scan, hbase, hresume, hexamined, hvisit]
  | ok items => simp only [scan, hbase, hresume, hexamined, hvisit]

/-- A round over a sound collection shows what matches among the first of its candidates. -/
theorem scan_of_sound (st : Store) (h : c.Sound st.trees) (hbase : c.base = .ok base)
    (hresume : resume? st.cursors cursor (rangeOf base pattern) = some (bound, cursors))
    (hpast : bound.Past (rangeOf base pattern)) (count : Nat) {examined : Records c.kind}
    (hexamined : (c.candidates st.trees base bound
      (rangeOf base pattern)).take (max count 1) = examined) {next : Nat × Cursors}
    (hnext : nextCursor cursors (examined.map (c.kind.entryOf base)) (max count 1) = next) :
    st.scan c cursor pattern count =
      (.ok ⟨next.1, c.shown pattern examined⟩, { st with cursors := next.2 }) := by
  have hround := scan_of_resume st hbase hresume count
    (h.examine_eq hbase (List.prefix_append _ _) hpast (max count 1))
  rw [hexamined, c.visitAll_entries, hnext] at hround
  exact hround

/-- In an ascending list, what is not behind an element is what stands up to it. -/
theorem filter_upTo_of_ascending (base : Key) {found before after : Records c.kind}
    {r : String × c.kind.Payload} (hfound : found = before ++ r :: after)
    (hsorted : found.Pairwise fun r r' => Utf8.bytes r.1 < Utf8.bytes r'.1) :
    found.filter (fun r' => (Bound.after (base ++ Utf8.bytes r.1)).excludes
      (base ++ Utf8.bytes r'.1)) = before ++ [r] := by
  subst hfound
  rw [List.pairwise_append, List.pairwise_cons] at hsorted
  obtain ⟨-, ⟨hafter, -⟩, hbefore⟩ := hsorted
  simp only [Bound.excludes, append_lt_append_left_iff, List.filter_append]
  have hlow : ∀ r' ∈ before, (!decide (Utf8.bytes r.1 < Utf8.bytes r'.1)) = true := by
    intro r' hr'
    have hlt := hbefore r' hr' r List.mem_cons_self
    simpa using fun h => KeyOrder.irrefl _ (KeyOrder.trans h hlt)
  have hhigh : ∀ r' ∈ after, ¬ (!decide (Utf8.bytes r.1 < Utf8.bytes r'.1)) = true := by
    intro r' hr'
    simpa using hafter r' hr'
  rw [List.filter_eq_self.mpr hlow, List.filter_cons_of_pos (by simp),
    List.filter_eq_nil_iff.mpr hhigh]

/-- A list that is long enough goes on behind its first `n` elements. -/
theorem exists_take_add_one {α : Type} {l : List α} {n : Nat} (h : n < l.length) :
    ∃ last after, l = l.take n ++ last :: after ∧ l.take (n + 1) = l.take n ++ [last] := by
  have hpos : 0 < (l.drop n).length := by
    rw [List.length_drop]
    omega
  obtain ⟨last, after, hdrop⟩ := List.exists_cons_of_length_pos hpos
  refine ⟨last, after, ?_, ?_⟩
  · rw [← hdrop, List.take_append_drop]
  · rw [List.take_add_one, ← List.head?_drop, hdrop]
    rfl

/-- A round that examines less than it may ends the scan. -/
theorem nextCursor_of_few {α : Type} {examined : List (Key × α)} {limit : Nat}
    (h : examined.length < limit) : nextCursor cursors examined limit = (0, cursors) := by
  rw [nextCursor]
  split
  · exact if_neg (by omega)
  · rfl

/-- A round that examines as much as it may opens a cursor at the last key. -/
theorem nextCursor_concat {α : Type} (cursors : Cursors) (examined : List (Key × α))
    (last : Key × α) :
    nextCursor cursors (examined ++ [last]) (examined.length + 1) = cursors.issue last.1 := by
  simp [nextCursor]

/-- A round that issues a cursor examined the entry that it issues it for. -/
theorem mem_of_nextCursor {α : Type} {examined : List (Key × α)} {limit : Nat}
    (h : (nextCursor cursors examined limit).1 ≠ 0) :
    ∃ last ∈ examined, nextCursor cursors examined limit = cursors.issue last.1 := by
  cases hlast : examined.getLast? with
  | none => simp [nextCursor, hlast] at h
  | some last =>
      simp only [nextCursor, hlast] at h ⊢
      split at h
      next hfull => exact ⟨last, List.mem_of_getLast? hlast, if_pos hfull⟩
      next => exact absurd rfl h

/-- A round that finds fewer candidates than it may examine shows them all and ends the scan. -/
theorem scan_of_few (st : Store) (h : c.Sound st.trees) (hbase : c.base = .ok base)
    (hresume : resume? st.cursors cursor (rangeOf base pattern) = some (bound, cursors))
    (hpast : bound.Past (rangeOf base pattern)) {count : Nat}
    (hfew : (c.candidates st.trees base bound (rangeOf base pattern)).length < max count 1) :
    st.scan c cursor pattern count =
      (.ok ⟨0, c.shown pattern (c.candidates st.trees base bound (rangeOf base pattern))⟩,
        { st with cursors }) := by
  have hexamined : ((c.candidates st.trees base bound (rangeOf base pattern)).map
      (c.kind.entryOf base)).length < max count 1 := by rwa [List.length_map]
  exact scan_of_sound st h hbase hresume hpast count (List.take_of_length_le (by omega))
    (nextCursor_of_few hexamined)

/-- A round that finds as many candidates as it may examine shows these, and goes on behind the
last of them. -/
theorem scan_of_many (st : Store) (h : c.Sound st.trees) (hbase : c.base = .ok base)
    (hresume : resume? st.cursors cursor (rangeOf base pattern) = some (bound, cursors))
    (hpast : bound.Past (rangeOf base pattern)) {count : Nat}
    (hmany : max count 1 ≤ (c.candidates st.trees base bound (rangeOf base pattern)).length) :
    ∃ before last after,
      c.candidates st.trees base bound (rangeOf base pattern) = before ++ last :: after ∧
      before.length + 1 = max count 1 ∧
      st.scan c cursor pattern count =
        (.ok ⟨cursors.next, c.shown pattern (before ++ [last])⟩,
          { st with cursors := (cursors.issue (base ++ Utf8.bytes last.1)).2 }) := by
  obtain ⟨n, hn⟩ : ∃ n, max count 1 = n + 1 := ⟨max count 1 - 1, by omega⟩
  have hscan := scan_of_sound st h hbase hresume hpast count rfl rfl
  generalize c.candidates st.trees base bound (rangeOf base pattern) = found at *
  obtain ⟨last, after, hsplit, hexamined⟩ := exists_take_add_one (by omega : n < found.length)
  have hlength : ((found.take n).map (c.kind.entryOf base)).length = n := by
    rw [List.length_map, List.length_take]
    omega
  have hnext := nextCursor_concat cursors ((found.take n).map (c.kind.entryOf base))
    (c.kind.entryOf base last)
  rw [hlength] at hnext
  rw [hn, hexamined, List.map_append, List.map_singleton, hnext] at hscan
  rw [List.length_map] at hlength
  exact ⟨_, last, after, hsplit, by omega, hscan⟩

/-- **What one round answers.**  A round over a sound collection either ends the scan
with all matching records behind its start, or answers those up to a record of its range,
and the cursor that it issues stands for that record. -/
theorem scan_round (st : Store) (h : c.Sound st.trees) (hbase : c.base = .ok base)
    (hresume : resume? st.cursors cursor (rangeOf base pattern) = some (bound, cursors))
    (hpast : bound.Past (rangeOf base pattern)) (count : Nat) :
    st.scan c cursor pattern count =
        (.ok ⟨0, c.shown pattern ((c.records st.trees).filter fun r =>
          !bound.excludes (base ++ Utf8.bytes r.1))⟩, { st with cursors }) ∨
      ∃ last ∈ c.candidates st.trees base bound (rangeOf base pattern),
        st.scan c cursor pattern count =
          (.ok ⟨cursors.next, c.shown pattern ((c.records st.trees).filter fun r =>
              !bound.excludes (base ++ Utf8.bytes r.1) &&
                (Bound.after (base ++ Utf8.bytes last.1)).excludes (base ++ Utf8.bytes r.1))⟩,
            { st with cursors := (cursors.issue (base ++ Utf8.bytes last.1)).2 }) := by
  have hshown := c.shown_candidates st.trees base bound pattern
  rcases Nat.lt_or_ge (c.candidates st.trees base bound (rangeOf base pattern)).length
    (max count 1) with hfew | hmany
  · left
    have hkeep := hshown fun _ => true
    simp only [List.filter_true, Bool.and_true] at hkeep
    rw [scan_of_few st h hbase hresume hpast hfew, hkeep]
  · right
    obtain ⟨before, last, after, hsplit, -, hscan⟩ :=
      scan_of_many st h hbase hresume hpast hmany
    have hsorted : (c.candidates st.trees base bound (rangeOf base pattern)).Pairwise
        fun r r' => Utf8.bytes r.1 < Utf8.bytes r'.1 :=
      (c.records_ascending st.trees).filter _
    refine ⟨last, hsplit ▸ List.mem_append_right _ List.mem_cons_self, ?_⟩
    rw [hscan, ← filter_upTo_of_ascending base hsplit hsorted, hshown]

end Store

end KeyedRelations
