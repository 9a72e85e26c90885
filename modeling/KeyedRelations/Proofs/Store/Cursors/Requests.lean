import KeyedRelations.Proofs.Store.Cursors
import Mathlib.Data.List.Nodup
import Mathlib.Data.List.Range
import Mathlib.Data.List.Perm.Subperm

/-!
# The life of a cursor

What the open cursors answer to requests that come in any order, from the first on.  Numbers are
counted up from one, and those that are open are different (`Tidy`), so the ones that are kept when
room is made fit between the oldest that survives and the newest: there are never more open than
`capacity`.  An open cursor is lost in two ways only, by being used up and by being `capacity`
numbers old when room is made (`key?_run_of_spared`), and what is lost stays lost, since its
number is not issued again (`key?_run_of_lost`).
-/

namespace KeyedRelations.Cursors

/-- What scans ask for. -/
inductive Request where
  /-- A cursor for a key. -/
  | issue (key : Key)
  /-- The key of a cursor, which is used up. -/
  | take (cursor : Nat)
  deriving DecidableEq, Repr

/-- What a request is answered. -/
inductive Answer where
  | issued (cursor : Nat)
  | redeemed (key : Key)
  | unknown
  deriving DecidableEq, Repr

/-- Answers a request. -/
def serve (t : Cursors) : Request → Answer × Cursors
  | .issue key => (.issued (t.issue key).1, (t.issue key).2)
  | .take cursor =>
    match t.take? cursor with
    | some (key, rest) => (.redeemed key, rest)
    | none => (.unknown, t)

/-- The cursors after requests. -/
def run (t : Cursors) (requests : List Request) : Cursors :=
  requests.foldl (fun t request => (t.serve request).2) t

/-- What a request is answered after others, the first of which found no cursor issued. -/
def answer (before : List Request) (request : Request) : Answer :=
  ((empty.run before).serve request).1

/-- The numbers that are issued in the course of requests. -/
def numbers (t : Cursors) : List Request → List Nat
  | [] => []
  | .issue key :: rest => (t.issue key).1 :: numbers (t.serve (.issue key)).2 rest
  | .take cursor :: rest => numbers (t.serve (.take cursor)).2 rest

/-- How many cursors requests ask for. -/
def asked : List Request → Nat
  | [] => 0
  | .issue _ :: rest => asked rest + 1
  | .take _ :: rest => asked rest

variable {t : Cursors} {cursor : Nat} {key : Key}

theorem run_append (t : Cursors) (before later : List Request) :
    t.run (before ++ later) = (t.run before).run later := List.foldl_append

theorem run_cons (t : Cursors) (request : Request) (later : List Request) :
    t.run (request :: later) = (t.serve request).2.run later := rfl

theorem asked_append (before later : List Request) :
    asked (before ++ later) = asked before + asked later := by
  induction before with
  | nil => simp [asked]
  | cons request before ih =>
      cases request <;> simp only [List.cons_append, asked, ih]
      omega

/-! ### One request -/

/-- An open cursor is redeemed for its key, and closed. -/
theorem serve_take_of_open (h : t.key? cursor = some key) :
    t.serve (.take cursor) = (.redeemed key, t.without (some (cursor, key))) := by
  simp only [serve, take?_eq, h, Option.map_some]

/-- A cursor that is not open is not known. -/
theorem serve_take_of_lost (h : t.key? cursor = none) :
    t.serve (.take cursor) = (.unknown, t) := by
  simp only [serve, take?_eq, h, Option.map_none]

theorem answer_take_eq_redeemed_iff {before : List Request} :
    answer before (.take cursor) = .redeemed key ↔ (empty.run before).key? cursor = some key := by
  unfold answer
  cases h : (empty.run before).key? cursor with
  | none => simp [serve_take_of_lost h]
  | some key' => simp [serve_take_of_open h]

theorem answer_take_eq_unknown_iff {before : List Request} :
    answer before (.take cursor) = .unknown ↔ (empty.run before).key? cursor = none := by
  unfold answer
  cases h : (empty.run before).key? cursor with
  | none => simp [serve_take_of_lost h]
  | some key' => simp [serve_take_of_open h]

/-- Only a cursor that is asked for is issued. -/
theorem issued_serve (t : Cursors) (request : Request) :
    (t.serve request).2.issued = t.issued + asked [request] := by
  cases request with
  | issue key => rfl
  | take cursor =>
      cases h : t.key? cursor with
      | none => rw [serve_take_of_lost h]; rfl
      | some key => rw [serve_take_of_open h]; rfl

/-- **How an open cursor survives a request**: it is not used up, and when room is made for a new
one, that is less than `capacity` numbers ahead. -/
theorem key?_serve_of_spared (hopen : t.key? cursor = some key) (hissued : cursor ≤ t.issued)
    {request : Request} (hother : request ≠ .take cursor)
    (hspared : ∀ key', request = .issue key' →
      t.next - capacity < cursor ∨ t.opened.length < capacity) :
    (t.serve request).2.key? cursor = some key := by
  cases request with
  | issue key' =>
      rcases hspared key' rfl with hrecent | hfew
      · exact (key?_issue_of_recent hissued hrecent).trans hopen
      · exact (key?_issue_of_few hissued hfew).trans hopen
  | take other =>
      have hne : other ≠ cursor := fun heq => hother (heq ▸ rfl)
      cases hkey : t.key? other with
      | none => rw [serve_take_of_lost hkey, hopen]
      | some key' =>
          rw [serve_take_of_open hkey, key?_without (e := (other, key')) hne, hopen]

/-- A number that was issued and stands for no key stands for none after a request. -/
theorem key?_serve_of_lost (hlost : t.key? cursor = none) (hissued : cursor ≤ t.issued)
    (request : Request) : (t.serve request).2.key? cursor = none := by
  cases request with
  | issue key =>
      rcases key?_issue_or key hissued with h | h
      · exact h.trans hlost
      · exact h
  | take other =>
      cases hkey : t.key? other with
      | none => rw [serve_take_of_lost hkey, hlost]
      | some key =>
          have hne : other ≠ cursor := by
            rintro rfl
            simp [hkey] at hlost
          rw [serve_take_of_open hkey, key?_without (e := (other, key)) hne, hlost]

/-! ### Any number of requests -/

theorem issued_run (t : Cursors) (requests : List Request) :
    (t.run requests).issued = t.issued + asked requests := by
  induction requests generalizing t with
  | nil => rfl
  | cons request rest ih =>
      have hsplit := asked_append [request] rest
      have hserve := issued_serve t request
      rw [run_cons, ih]
      simp only [List.singleton_append] at hsplit
      omega

/-- The numbers are counted up. -/
theorem numbers_eq (t : Cursors) (requests : List Request) :
    t.numbers requests = List.range' t.next (asked requests) := by
  induction requests generalizing t with
  | nil => rfl
  | cons request rest ih =>
      have hserve := issued_serve t request
      cases request with
      | issue key =>
          rw [numbers, ih, asked, List.range'_succ]
          rfl
      | take cursor =>
          rw [numbers, ih, asked, next, hserve]
          rfl

/-- A number that was issued and stands for no key never does again. -/
theorem key?_run_of_lost (hlost : t.key? cursor = none) (hissued : cursor ≤ t.issued)
    (later : List Request) : (t.run later).key? cursor = none := by
  induction later generalizing t with
  | nil => exact hlost
  | cons request later ih =>
      have hserve := issued_serve t request
      rw [run_cons]
      exact ih (key?_serve_of_lost hlost hissued request) (by omega)

/-- **An open cursor outlives requests** that do not use it up, if it is spared whenever room is
made for a new one. -/
theorem key?_run_of_spared {later : List Request} (hopen : t.key? cursor = some key)
    (hissued : cursor ≤ t.issued) (hother : .take cursor ∉ later)
    (hspared : ∀ done key' rest, later = done ++ .issue key' :: rest →
      (t.run done).next - capacity < cursor ∨ (t.run done).opened.length < capacity) :
    (t.run later).key? cursor = some key := by
  induction later generalizing t with
  | nil => exact hopen
  | cons request later ih =>
      rw [List.mem_cons, not_or] at hother
      have hserve := issued_serve t request
      have hnow := key?_serve_of_spared hopen hissued (Ne.symm hother.1)
        fun key' heq => hspared [] key' later (by rw [heq]; rfl)
      rw [run_cons]
      refine ih hnow (by omega) hother.2 fun done key' rest heq => ?_
      exact hspared (request :: done) key' rest (by rw [heq]; rfl)

/-! ### How many are open -/

/-- **Tidy cursors**: different numbers that have been issued, and not too many. -/
structure Tidy (t : Cursors) : Prop where
  nodup : (t.opened.map (·.1)).Nodup
  issued : ∀ e ∈ t.opened, e.1 ≤ t.issued
  few : t.opened.length ≤ capacity

/-- Different numbers fit between those that bound them. -/
theorem length_le_of_between {l : List Nat} {low high : Nat} (hnodup : l.Nodup)
    (hbetween : ∀ n ∈ l, low < n ∧ n ≤ high) : l.length ≤ high - low := by
  have hsubset : l ⊆ List.range' (low + 1) (high - low) := by
    intro n hn
    obtain ⟨hlow, hhigh⟩ := hbetween n hn
    rw [List.mem_range'_1]
    omega
  have hle := (List.subperm_of_subset hnodup hsubset).length_le
  rwa [List.length_range'] at hle

theorem tidy_empty : Tidy empty := by
  constructor <;> simp [empty]

/-- Making room leaves open what is less than `capacity` numbers old, and so less than
`capacity`. -/
theorem Tidy.issue (h : t.Tidy) (key : Key) : (t.issue key).2.Tidy := by
  have hsub : ∀ keep : Nat × Key → Bool, (t.opened.filter keep).Sublist t.opened :=
    fun _ => List.filter_sublist
  have hnew {kept : List (Nat × Key)} (hkept : kept.Sublist t.opened)
      (hroom : kept.length < capacity) : Tidy ⟨t.next, (t.next, key) :: kept⟩ := by
    constructor
    case nodup =>
      refine List.nodup_cons.mpr ⟨fun hmem => ?_, (hkept.map _).nodup h.nodup⟩
      obtain ⟨e, he, heq⟩ := List.mem_map.mp hmem
      exact next_ne (h.issued e (hkept.subset he)) heq.symm
    case issued =>
      intro e he
      rcases List.mem_cons.mp he with rfl | he
      · exact Nat.le_refl _
      · exact (h.issued e (hkept.subset he)).trans (Nat.le_succ _)
    case few => exact hroom
  unfold Cursors.issue
  split
  next hfull =>
    refine hnew (hsub _) ?_
    have hkept := hsub fun e => t.next - capacity < e.1
    have hwithin : ∀ n ∈ (t.opened.filter fun e => t.next - capacity < e.1).map Prod.fst,
        t.next - capacity < n ∧ n ≤ t.issued := by
      intro n hn
      obtain ⟨e, he, rfl⟩ := List.mem_map.mp hn
      obtain ⟨hmem, hrecent⟩ := List.mem_filter.mp he
      exact ⟨by simpa using hrecent, h.issued e hmem⟩
    have hbetween := length_le_of_between ((hkept.map Prod.fst).nodup h.nodup) hwithin
    have hpos : 0 < capacity := by decide
    rw [List.length_map] at hbetween
    unfold next at hbetween ⊢
    omega
  next hfew => exact hnew (List.Sublist.refl _) (by omega)

theorem Tidy.serve (h : t.Tidy) (request : Request) : (t.serve request).2.Tidy := by
  cases request with
  | issue key => exact h.issue key
  | take cursor =>
      cases hkey : t.key? cursor with
      | none => rwa [serve_take_of_lost hkey]
      | some key =>
          rw [serve_take_of_open hkey]
          have hsub : (t.opened.filter (·.1 ≠ cursor)).Sublist t.opened := List.filter_sublist
          exact ⟨(hsub.map _).nodup h.nodup, fun e he => h.issued e (hsub.subset he),
            hsub.length_le.trans h.few⟩

theorem Tidy.run (h : t.Tidy) (requests : List Request) : (t.run requests).Tidy := by
  induction requests generalizing t with
  | nil => exact h
  | cons request rest ih => exact ih (h.serve request)

/-- What is open has been issued. -/
theorem Tidy.le_issued_of_open (h : t.Tidy) (hopen : t.key? cursor = some key) :
    cursor ≤ t.issued := by
  obtain ⟨e, hfind, -⟩ := Option.map_eq_some_iff.mp hopen
  have hcursor : e.1 = cursor := by simpa using List.find?_some hfind
  exact hcursor ▸ h.issued e (List.mem_of_find?_eq_some hfind)

/-! ### The life of a cursor -/

/-- **The life of a cursor.**  After any requests, at most `capacity` cursors are open, and the
numbers that were issued are those from one on, so that zero is not among them and none stands for
two keys.  A cursor that is not used up is redeemed for the very key that it was issued for if at
most `capacity - 1` others are issued after it, and also, whatever its age, if fewer than `capacity`
have been open ever since.  A cursor that was redeemed is not known any more. -/
theorem cursor_life (before later : List Request) (cursor : Nat) (key : Key) :
    (empty.run before).opened.length ≤ capacity ∧
      empty.numbers before = List.range' 1 (asked before) ∧
      0 ∉ empty.numbers before ∧ (empty.numbers before).Nodup ∧
      (answer before (.issue key) = .issued cursor → .take cursor ∉ later →
        (asked later ≤ capacity - 1 ∨ ∀ done, done <+: later →
          (empty.run (before ++ .issue key :: done)).opened.length < capacity) →
        answer (before ++ .issue key :: later) (.take cursor) = .redeemed key) ∧
      (answer before (.take cursor) = .redeemed key →
        answer (before ++ .take cursor :: later) (.take cursor) = .unknown) := by
  have hnumbers : empty.numbers before = List.range' 1 (asked before) := numbers_eq empty before
  refine ⟨(tidy_empty.run before).few, hnumbers, ?_, ?_, ?_, ?_⟩
  · rw [hnumbers, List.mem_range'_1]
    omega
  · rw [hnumbers]
    exact List.nodup_range'
  · intro hanswer hother hspared
    obtain rfl : (empty.run before).next = cursor := Answer.issued.inj hanswer
    rw [answer_take_eq_redeemed_iff, run_append, run_cons]
    refine key?_run_of_spared (key?_issue_self _ key) (Nat.le_refl _) hother ?_
    rintro done key' rest rfl
    rcases hspared with hrecent | hfew
    · -- each number that is issued after it is less than `capacity` ahead
      left
      have hissued := issued_run ((empty.run before).serve (.issue key)).2 done
      have hserve : ((empty.run before).serve (.issue key)).2.issued =
          (empty.run before).next := rfl
      have hpos : 0 < (empty.run before).next := Nat.succ_pos _
      rw [asked_append] at hrecent
      simp only [asked] at hrecent
      rw [next, hissued, hserve]
      omega
    · right
      have hroom := hfew done (List.prefix_append _ _)
      rwa [run_append, run_cons] at hroom
  · intro hredeemed
    rw [answer_take_eq_redeemed_iff] at hredeemed
    rw [answer_take_eq_unknown_iff, run_append, run_cons, serve_take_of_open hredeemed]
    have hissued := (tidy_empty.run before).le_issued_of_open hredeemed
    exact key?_run_of_lost key?_without_self hissued later

/-- The third cursor is redeemed after the fourth was issued and the second used up, and the first
only once. -/
theorem cursor_life_threeKeys :
    answer [.issue [1], .issue [2], .issue [3], .issue [4], .take 2] (.take 3) = .redeemed [3] ∧
      answer [.issue [1], .take 1, .issue [2]] (.take 1) = .unknown := by
  obtain ⟨-, -, -, -, hspared, -⟩ :=
    cursor_life [.issue [1], .issue [2]] [.issue [4], .take 2] 3 [3]
  obtain ⟨-, -, -, -, -, hused⟩ := cursor_life [.issue [1]] [.issue [2]] 1 [1]
  exact ⟨hspared (by decide) (by decide) (Or.inl (by decide)), hused (by decide)⟩

end KeyedRelations.Cursors
