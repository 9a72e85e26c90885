import Mathlib
import KeyedRelations.Proofs.Store.Effects
import KeyedRelations.Proofs.Store.Round
import KeyedRelations.Store.Program

/-!
# A scan of a store that others use too

One client scans a collection round by round, and between its rounds other clients send
whatever commands they like: they write and remove records, of this collection or
others, and go on with scans of their own.  The scan's place in the key order is kept by
one cursor, which others do not use and which is not old enough to be dropped.

What a round covers is the keys before the start of the next (`Bound.excludes`).  The
invariant `Progress` says that the scan has found nothing but what it has covered, in
order, and everything that was there all the time and matches.  One round moves the
place on and adds what lies between (`Progress.round`), and what others do
leaves it where it is (`Progress.other`).
-/

namespace KeyedRelations

/-- A scan of one client and the store that it shares with others. -/
structure SharedScan (r : ScanRequest) where
  store : Store
  paging : Paging
  /-- How many cursors the others have opened since the last round of the scan. -/
  foreign : Nat
  /-- The rounds so far, in order: the store that each met, and its answer. -/
  rounds : List (Store × Except StoreError (List r.Found))

namespace SharedScan

variable {r : ScanRequest}

/-- The scan before its first round. -/
def start (r : ScanRequest) (store : Store) : SharedScan r := ⟨store, .start, 0, []⟩

/-- The scan after its next round, if it is not over. -/
def advanced (w : SharedScan r) : SharedScan r :=
  match w.paging.next (fun cursor => Store.perform (r.round cursor)) w.store with
  | (none, _, _) => w
  | (some answer, paging, store) => ⟨store, paging, 0, w.rounds ++ [(w.store, answer)]⟩

/-- The scan after a command of another client. -/
def interrupted (w : SharedScan r) (cmd : Command) : SharedScan r :=
  let store := (w.store.perform cmd).2
  { w with store, foreign := w.foreign + (store.cursors.issued - w.store.cursors.issued) }

/-- One step of the store and its clients. -/
inductive Step : SharedScan r → SharedScan r → Prop
  /-- The scan's client sends the next round and keeps its answer. -/
  | round (w : SharedScan r) : Step w w.advanced
  /-- Another client sends a command.  Between two rounds of the scan it does not go on from
  the scan's cursor, and it does not open as many cursors as are kept. -/
  | other {w : SharedScan r} (cmd : Command)
      (hown : ∀ cursor, w.paging.cursor = .at cursor → cmd.cursor? ≠ some cursor)
      (hfew : ∀ cursor, w.paging.cursor = .at cursor →
        (w.interrupted cmd).foreign < Cursors.capacity) :
      Step w (w.interrupted cmd)

/-- What a round answers, if it does not fail. -/
def answered (round : Store × Except StoreError (List r.Found)) : List r.Found :=
  match round.2 with
  | .ok items => items
  | .error _ => []

/-- All that the rounds so far answered. -/
def found (w : SharedScan r) : List r.Found := w.rounds.flatMap answered

/-- Whether a record of a name is stored. -/
def Present (c : Collection) (name : String) (st : Store) : Prop :=
  ∃ payload, st.read c name = .ok (some payload)

/-- Whether a store holds a record as a scan shows it. -/
def Shows (c : Collection) (st : Store) (item : String × c.kind.Item) : Prop :=
  ∃ payload, st.read c item.1 = .ok (some payload) ∧ c.kind.item payload = item.2

/-! ### Where the scan stands -/

/-- Whether a scan that goes on from a place has passed a key; without a place it is over. -/
def covers (place : Option Store.Bound) (key : Key) : Bool :=
  match place with
  | none => true
  | some bound => bound.excludes key

/-- Where the next round of a scan starts.  A scan that is under way has one open cursor,
issued not long ago. -/
inductive Stands (w : SharedScan r) (base : Key) : Option Store.Bound → Prop
  | start (h : w.paging.cursor = .start) :
      Stands w base (some (.atOrAfter (Store.rangeOf base r.pattern)))
  | underway (cursor : Nat) (key : Key) (h : w.paging.cursor = .at cursor) (hpos : 0 < cursor)
      (hopen : w.store.cursors.key? cursor = some key)
      (hissued : w.store.cursors.issued = cursor + w.foreign)
      (hkey : Store.rangeOf base r.pattern <+: key) :
      Stands w base (some (.after key))
  | done (h : w.paging.cursor = .done) : Stands w base none

/-- What holds of a scan at every step. -/
structure Progress (w : SharedScan r) (base : Key) (place : Option Store.Bound) : Prop where
  sound : r.collection.Sound w.store.trees
  stands : Stands w base place
  covered : ∀ item ∈ w.found, covers place (base ++ Utf8.bytes item.1) = true
  ascending : w.found.Pairwise fun a b => Utf8.bytes a.1 < Utf8.bytes b.1
  answers : ∀ round ∈ w.rounds, ∃ items, round.2 = .ok items ∧
    ∀ item ∈ items, Glob.accepts r.pattern item.1 = true ∧ Shows r.collection round.1 item
  complete : ∀ name, Glob.accepts r.pattern name = true →
    covers place (base ++ Utf8.bytes name) = true →
    (∀ round ∈ w.rounds, Present r.collection name round.1) → name ∈ w.found.map (·.1)

variable {w : SharedScan r} {base : Key} {place : Option Store.Bound}

/-- Before the first round nothing is found, and no match is passed. -/
theorem Progress.start {store : Store} (hsound : r.collection.Sound store.trees) (base : Key) :
    Progress (start r store) base (some (.atOrAfter (Store.rangeOf base r.pattern))) where
  sound := hsound
  stands := Stands.start rfl
  covered := by simp [SharedScan.start, found]
  ascending := by simp [SharedScan.start, found]
  answers := by simp [SharedScan.start]
  complete := by
    intro name haccepts hcovers
    have hrange := Store.rangeOf_isPrefix haccepts base
    exact absurd (by simpa [covers, Store.Bound.excludes] using hcovers)
      (not_lt_of_isPrefix hrange)

/-- What others do leaves the scan where it stands. -/
theorem Progress.other (h : Progress w base place) (cmd : Command)
    (hown : ∀ cursor, w.paging.cursor = .at cursor → cmd.cursor? ≠ some cursor)
    (hfew : ∀ cursor, w.paging.cursor = .at cursor →
      (w.interrupted cmd).foreign < Cursors.capacity) :
    Progress (w.interrupted cmd) base place where
  sound := h.sound.perform cmd
  stands := by
    cases h.stands with
    | start hcursor => exact Stands.start hcursor
    | done hcursor => exact Stands.done hcursor
    | underway cursor key hcursor hpos hopen hissued hkey =>
        have hforeign := hfew cursor hcursor
        simp only [interrupted] at hforeign
        obtain ⟨hstill, hmore⟩ := Store.perform_key? hopen (by omega) (hown cursor hcursor)
          (by omega) hpos
        refine Stands.underway cursor key hcursor hpos hstill ?_ hkey
        simp only [interrupted]
        omega
  covered := h.covered
  ascending := h.ascending
  answers := h.answers
  complete := h.complete

/-! ### A round -/

/-- The next round goes on from where the scan stands. -/
theorem Stands.resume (h : Stands w base place) {cursor : Nat}
    (hposition : w.paging.cursor.position? = some cursor) :
    ∃ bound cursors, place = some bound ∧ bound.Past (Store.rangeOf base r.pattern) ∧
      Store.resume? w.store.cursors cursor (Store.rangeOf base r.pattern) =
        some (bound, cursors) := by
  cases h with
  | done hcursor => simp [hcursor, ScanCursor.position?] at hposition
  | start hcursor =>
      obtain rfl : 0 = cursor := by simpa [hcursor, ScanCursor.position?] using hposition
      exact ⟨_, _, rfl, Store.Bound.past_atOrAfter _, Store.resume?_start _ _⟩
  | underway cursor' key hcursor hpos hopen hissued hkey =>
      obtain rfl : cursor' = cursor := by simpa [hcursor, ScanCursor.position?] using hposition
      exact ⟨_, _, rfl, Store.Bound.past_after hkey,
        Store.resume?_of_key? hopen (Nat.ne_of_gt hpos) _⟩

/-- An answer adds its items to what was found. -/
theorem found_of_rounds {after : SharedScan r} {st : Store} {items : List r.Found}
    (h : after.rounds = w.rounds ++ [(st, .ok items)]) : after.found = w.found ++ items := by
  simp [found, h, answered]

/-- A round that answers the matching records between two places moves the scan from one
to the other. -/
theorem Progress.extend {bound : Store.Bound} (h : Progress w base (some bound))
    {place' : Option Store.Bound}
    (hmono : ∀ key, bound.excludes key = true → covers place' key = true)
    {items : List r.Found}
    (hitems : items = r.collection.shown r.pattern
      ((r.collection.records w.store.trees).filter fun found =>
        !bound.excludes (base ++ Utf8.bytes found.1) && covers place' (base ++ Utf8.bytes found.1)))
    {after : SharedScan r} (hrounds : after.rounds = w.rounds ++ [(w.store, .ok items)])
    (hsound : r.collection.Sound after.store.trees) (hstands : Stands after base place') :
    Progress after base place' := by
  have hfound := found_of_rounds hrounds
  have hmem : ∀ item, item ∈ items ↔
      ∃ payload, ((item.1, payload) ∈ r.collection.records w.store.trees ∧
        bound.excludes (base ++ Utf8.bytes item.1) = false ∧
        covers place' (base ++ Utf8.bytes item.1) = true) ∧
        Glob.accepts r.pattern item.1 = true ∧ r.collection.kind.item payload = item.2 := by
    intro item
    rw [hitems, Collection.mem_shown_iff]
    simp
  refine ⟨hsound, hstands, ?covered, ?ascending, ?answers, ?complete⟩
  case covered =>
    intro item hitem
    rw [hfound] at hitem
    rcases List.mem_append.mp hitem with hitem | hitem
    · exact hmono _ (h.covered item hitem)
    · obtain ⟨payload, ⟨-, -, hcovers⟩, -⟩ := (hmem item).mp hitem
      exact hcovers
  case ascending =>
    rw [hfound, List.pairwise_append]
    refine ⟨h.ascending, ?_, ?_⟩
    · rw [hitems]
      exact Collection.shown_ascending ((r.collection.records_ascending _).filter _)
    · intro a ha b hb
      obtain ⟨payload, ⟨-, hbehind, -⟩, -⟩ := (hmem b).mp hb
      exact append_lt_append_left_iff.mp (Store.Bound.lt_of_excludes (h.covered a ha) hbehind)
  case answers =>
    intro round hround
    rw [hrounds] at hround
    rcases List.mem_append.mp hround with hround | hround
    · exact h.answers round hround
    · obtain rfl := List.mem_singleton.mp hround
      refine ⟨items, rfl, fun item hitem => ?_⟩
      obtain ⟨payload, ⟨hrecord, -⟩, haccepts, hpayload⟩ := (hmem item).mp hitem
      exact ⟨haccepts, payload, Collection.mem_records_iff.mp hrecord, hpayload⟩
  case complete =>
    intro name haccepts hcovers hstored
    rw [hfound, List.map_append, List.mem_append]
    rw [hrounds] at hstored
    cases hbound : bound.excludes (base ++ Utf8.bytes name) with
    | true =>
        exact Or.inl (h.complete name haccepts hbound fun round hround =>
          hstored round (List.mem_append_left _ hround))
    | false =>
        obtain ⟨payload, hread⟩ := hstored _ (List.mem_append_right _ List.mem_cons_self)
        refine Or.inr (List.mem_map.mpr ⟨(name, r.collection.kind.item payload), ?_, rfl⟩)
        exact (hmem _).mpr
          ⟨payload, ⟨Collection.mem_records_iff.mpr hread, hbound, hcovers⟩, haccepts, rfl⟩

/-- A scan that is over sends no round. -/
theorem advanced_of_done (h : w.paging.cursor.position? = none) : w.advanced = w := by
  simp [advanced, Paging.next, h]

/-- A round that is answered. -/
theorem advanced_of_ok {cursor : Nat} (hposition : w.paging.cursor.position? = some cursor)
    {page : Page r.Found} {store : Store}
    (hscan : w.store.scan r.collection cursor r.pattern r.count = (.ok page, store)) :
    w.advanced = ⟨store, w.paging.answered page.cursor, 0,
      w.rounds ++ [(w.store, .ok page.items)]⟩ := by
  simp [advanced, Paging.next, hposition, Store.perform, hscan]

/-- A round that fails. -/
theorem advanced_of_error {cursor : Nat} (hposition : w.paging.cursor.position? = some cursor)
    {e : StoreError} {store : Store}
    (hscan : w.store.scan r.collection cursor r.pattern r.count = (.error e, store)) :
    w.advanced = ⟨store, w.paging.failed, 0, w.rounds ++ [(w.store, .error e)]⟩ := by
  simp [advanced, Paging.next, hposition, Store.perform, hscan]

/-- A round moves the scan on. -/
theorem Progress.round (h : Progress w base place) (hbase : r.collection.base = .ok base) :
    ∃ place', Progress w.advanced base place' := by
  cases hposition : w.paging.cursor.position? with
  | none =>
      rw [advanced_of_done hposition]
      exact ⟨place, h⟩
  | some cursor =>
      obtain ⟨bound, cursors, rfl, hpast, hresume⟩ := h.stands.resume hposition
      rcases Store.scan_round w.store h.sound hbase hresume hpast r.count
        with hscan | ⟨last, hlast, hscan⟩
      · rw [advanced_of_ok hposition hscan]
        refine ⟨none, h.extend (fun _ _ => rfl) ?_ rfl h.sound (Stands.done rfl)⟩
        simp [covers]
      · rw [advanced_of_ok hposition hscan]
        obtain ⟨-, hcandidate⟩ := List.mem_filter.mp hlast
        rw [Bool.and_eq_true, Bool.not_eq_true', List.isPrefixOf_iff_prefix] at hcandidate
        refine ⟨some (.after (base ++ Utf8.bytes last.1)), h.extend ?_ rfl rfl h.sound ?_⟩
        · intro key hkey
          exact Store.Bound.after_excludes hcandidate.1 hkey
        · exact Stands.underway cursors.next _ rfl (Nat.succ_pos _) (Cursors.key?_issue_self _ _)
            rfl hcandidate.2

/-! ### Runs -/

/-- Without a base every round fails, and only for that reason. -/
theorem rounds_of_base_error {e : StoreError} (hbase : r.collection.base = .error e) {st : Store}
    (hrun : Relation.ReflTransGen Step (start r st) w) :
    ∀ round ∈ w.rounds, round.2 = .error e := by
  induction hrun with
  | refl => simp [start]
  | @tail w _ _ hstep ih =>
      cases hstep with
      | other cmd => exact ih
      | round =>
          cases hposition : w.paging.cursor.position? with
          | none =>
              rw [advanced_of_done hposition]
              exact ih
          | some cursor =>
              have hscan : w.store.scan r.collection cursor r.pattern r.count =
                  (.error e, w.store) := by
                rw [Store.scan, hbase]
              rw [advanced_of_error hposition hscan]
              intro round hround
              rcases List.mem_append.mp hround with hround | hround
              · exact ih round hround
              · rw [List.mem_singleton.mp hround]

/-- A scan that is over has had a round. -/
theorem rounds_ne_nil {st : Store} (hrun : Relation.ReflTransGen Step (start r st) w)
    (hdone : w.paging.cursor = .done) : w.rounds ≠ [] := by
  induction hrun with
  | refl => cases hdone
  | @tail w _ _ hstep ih =>
      cases hstep with
      | other cmd => exact ih hdone
      | round =>
          rw [advanced] at hdone ⊢
          split
          next hnext =>
            rw [hnext] at hdone
            exact ih hdone
          next => simp

/-- A scan of a collection that has a base makes progress in every run. -/
theorem exists_progress {st : Store} (hsound : r.collection.Sound st.trees)
    (hbase : r.collection.base = .ok base)
    (hrun : Relation.ReflTransGen Step (start r st) w) : ∃ place, Progress w base place := by
  induction hrun with
  | refl => exact ⟨_, Progress.start hsound base⟩
  | tail _ hstep ih =>
      obtain ⟨place, hprogress⟩ := ih
      cases hstep with
      | round => exact hprogress.round hbase
      | other cmd hown hfew => exact ⟨place, hprogress.other cmd hown hfew⟩

/-- What a client may count on that scans a collection among other clients. -/
structure Guarantee (w : SharedScan r) : Prop where
  /-- A round fails only if the collection has no keys, for the fault of its container key and
  never for its cursor. -/
  failure : ∀ round ∈ w.rounds, ∀ e, round.2 = .error e →
    r.collection.base = .error e ∧ e = .invalidKey r.collection.container
  /-- The names that were answered ascend strictly in the order of their bytes. -/
  ascending : w.found.Pairwise fun a b => Utf8.bytes a.1 < Utf8.bytes b.1
  /-- What was answered matches and was stored so when its round met the store. -/
  answers : ∀ round ∈ w.rounds, ∀ item ∈ answered round,
    Glob.accepts r.pattern item.1 = true ∧ Shows r.collection round.1 item
  /-- Once the scan is over, every match that was stored at all of its rounds was answered. -/
  complete : w.paging.cursor = .done → ∀ name, Glob.accepts r.pattern name = true →
    (∀ round ∈ w.rounds, Present r.collection name round.1) → name ∈ w.found.map (·.1)

/-- **The guarantee holds in every run** of a scan over a collection that was sound at its
start, whatever others do between its rounds, as long as they do not use its cursor and
open fewer than `capacity` cursors between two of its rounds. -/
theorem run_guarantee {st : Store} (hsound : r.collection.Sound st.trees)
    (hrun : Relation.ReflTransGen Step (start r st) w) : Guarantee w := by
  cases hbase : r.collection.base with
  | ok base =>
      obtain ⟨place, h⟩ := exists_progress hsound hbase hrun
      refine ⟨?_, h.ascending, ?_, ?_⟩
      · intro round hround e he
        obtain ⟨items, hitems, -⟩ := h.answers round hround
        simp [hitems] at he
      · intro round hround item hitem
        obtain ⟨items, hitems, hall⟩ := h.answers round hround
        exact hall item (by simpa [answered, hitems] using hitem)
      · intro hdone name haccepts hstored
        refine h.complete name haccepts ?_ hstored
        cases h.stands with
        | start hcursor => simp [hcursor] at hdone
        | underway _ _ hcursor => simp [hcursor] at hdone
        | done => rfl
  | error e =>
      have hrounds := rounds_of_base_error hbase hrun
      have hanswered : ∀ round ∈ w.rounds, answered round = [] := fun round hround => by
        rw [answered, hrounds round hround]
      have hfound : w.found = [] := List.flatMap_eq_nil_iff.mpr hanswered
      refine ⟨?_, by simp [hfound], ?_, ?_⟩
      · intro round hround e' he'
        obtain rfl : e = e' := by simpa [hrounds round hround] using he'
        exact ⟨hbase, Collection.eq_invalidKey_of_base hbase⟩
      · intro round hround item hitem
        simp [hanswered round hround] at hitem
      · intro hdone name _ hstored
        obtain ⟨round, hround⟩ := List.exists_mem_of_ne_nil _ (rounds_ne_nil hrun hdone)
        obtain ⟨payload, hread⟩ := hstored round hround
        simp [Store.read, Collection.keyOf_of_base_error hbase] at hread

/-! ### A run in which others interfere -/

/-- A set. -/
def members : Collection := ⟨.set, "s"⟩

/-- A store of a set with two members. -/
def twoMembers : Store :=
  (Store.perform (.write members "m2" () .always)
    (Store.perform (.write members "m1" () .always) Store.empty).2).2

/-- A scan by pages of one member; after its first round others remove the member that it
answered and open a cursor of their own. -/
def busyScan : SharedScan ⟨members, "m*", 1⟩ :=
  ((((start _ twoMembers).advanced.interrupted (.remove members "m1")).interrupted
    (.scan members 0 "*" 1)).advanced).advanced

theorem run_guarantee_busyScan :
    members.Sound twoMembers.trees ∧
      Relation.ReflTransGen Step (start _ twoMembers) busyScan ∧
      busyScan.paging.cursor = .done ∧ busyScan.found.map (·.1) = ["m1", "m2"] ∧
      Guarantee busyScan := by
  have hsound : members.Sound twoMembers.trees := ((Collection.sound_empty _).perform _).perform _
  have hrun : Relation.ReflTransGen Step (start _ twoMembers) busyScan := by
    refine .tail (.tail (.tail (.tail (.tail .refl (.round _)) (.other _ ?_ ?_))
      (.other _ ?_ ?_)) (.round _)) (.round _)
    · exact fun _ _ => by simp [Command.cursor?]
    · exact fun _ _ => by cbv
    · intro cursor hcursor
      have hat : ((start ⟨members, "m*", 1⟩ twoMembers).advanced.interrupted
          (.remove members "m1")).paging.cursor = .at 1 := by cbv
      obtain rfl : 1 = cursor := by simpa [hat] using hcursor
      simp [Command.cursor?]
    · exact fun _ _ => by cbv
  exact ⟨hsound, hrun, by cbv, by cbv, run_guarantee hsound hrun⟩

end SharedScan

end KeyedRelations
