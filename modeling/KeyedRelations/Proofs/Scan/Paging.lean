import KeyedRelations.Scan.Cursor
import Mathlib.Data.List.Chain

/-!
# How the rounds of a scan are issued

A scan fetches its pages through a function that may have a state of its own and answer whatever it
likes, and its client asks for the next page or starts it anew at any time.  A note is taken of each
round that is issued (`Noted`), so that asking for a page and not issuing a round are told apart.
The rounds since the scan was last started say which cursor is due (`due?`), and that is where the
scan stands, whatever was done with it (`Proper`): zero when there are none, since no answer is what
the first round follows, and nothing after an answer that hands no cursor on.
-/

namespace KeyedRelations.Paging

variable {σ ε α : Type}

/-- What a client does with a scan. -/
inductive Call where
  /-- Asks for the next page. -/
  | next
  | restart
  deriving DecidableEq, Repr

/-- The cursor that an answer hands on to the next round, unless it is the last or a failure. -/
def handsOn? : Except ε (Page α) → Option Nat
  | .ok page => if page.cursor = 0 then none else some page.cursor
  | .error _ => none

/-- The cursor that is due after rounds, the first of which has cursor zero. -/
def due? (rounds : List (Nat × Except ε (Page α))) : Option Nat :=
  match rounds.getLast? with
  | none => some 0
  | some round => handsOn? round.2

/-- The scan after a round that had an answer. -/
def moved (p : Paging) : Except ε (Page α) → Paging
  | .ok page => p.answered page.cursor
  | .error _ => p.failed

/-- A scan in use: where it stands, the state of what it fetches through, and the rounds that it has
issued since it was last started, each with its answer. -/
structure Noted (σ ε α : Type) where
  paging : Paging
  state : σ
  issued : List (Nat × Except ε (Page α))

/-- Fetches in the same way and takes a note of it. -/
def noting (fetch : Nat → σ → Except ε (Page α) × σ) (cursor : Nat)
    (s : σ × List (Nat × Except ε (Page α))) :
    Except ε (Page α) × σ × List (Nat × Except ε (Page α)) :=
  let r := fetch cursor s.1
  (r.1, r.2, s.2 ++ [(cursor, r.1)])

/-- What a call yields, and the scan after it. -/
def Noted.call (fetch : Nat → σ → Except ε (Page α) × σ) (w : Noted σ ε α) :
    Call → Option (Except ε (List α)) × Noted σ ε α
  | .next =>
    let r := w.paging.next (noting fetch) (w.state, w.issued)
    (r.1, ⟨r.2.1, r.2.2.1, r.2.2.2⟩)
  | .restart => (none, ⟨w.paging.restart, w.state, []⟩)

/-- A new scan after calls. -/
def after (fetch : Nat → σ → Except ε (Page α) × σ) (s : σ) (calls : List Call) : Noted σ ε α :=
  calls.foldl (fun w call => (w.call fetch call).2) ⟨start, s, []⟩

/-- What asking for a number of pages yields. -/
def yields (fetch : Nat → σ → Except ε (Page α) × σ) :
    Nat → Paging → σ → List (Option (Except ε (List α)))
  | 0, _, _ => []
  | count + 1, p, s =>
    let r := p.next fetch s
    r.1 :: yields fetch count r.2.1 r.2.2

variable {fetch : Nat → σ → Except ε (Page α) × σ} {w : Noted σ ε α} {p : Paging}

/-! ### One round -/

/-- A scan that is over issues no round. -/
theorem next_of_over (h : p.cursor.position? = none) (s : σ) : p.next fetch s = (none, p, s) := by
  simp only [next, h]

/-- Otherwise it issues one, and yields the items of its page or its failure. -/
theorem next_of_due {cursor : Nat} (h : p.cursor.position? = some cursor) (s : σ) :
    p.next fetch s = (some ((fetch cursor s).1.map Page.items), p.moved (fetch cursor s).1,
      (fetch cursor s).2) := by
  unfold next
  rcases hfetch : fetch cursor s with ⟨⟨e⟩ | ⟨page⟩, s'⟩ <;> simp only [h, hfetch] <;> rfl

/-- A scan goes on from the cursor that its last round was handed. -/
theorem position?_moved (p : Paging) (answer : Except ε (Page α)) :
    (p.moved answer).cursor.position? = handsOn? answer := by
  cases answer with
  | error e => rfl
  | ok page =>
      unfold moved answered ScanCursor.advance handsOn?
      by_cases hlast : page.cursor = 0 <;> simp [hlast, ScanCursor.position?]

theorem rounds_moved (p : Paging) (answer : Except ε (Page α)) :
    (p.moved answer).rounds = p.rounds + 1 := by
  cases answer <;> rfl

/-! ### Any calls -/

/-- **A proper scan** stands where the rounds that it has issued leave it. -/
structure Proper (w : Noted σ ε α) : Prop where
  stands : w.paging.cursor.position? = due? w.issued
  counted : w.paging.rounds = w.issued.length
  first : ∀ round ∈ w.issued.head?, round.1 = 0
  handedOn : w.issued.IsChain fun earlier later => handsOn? earlier.2 = some later.1

theorem proper_start (s : σ) : Proper (⟨start, s, []⟩ : Noted σ ε α) := by
  constructor <;> simp [start, due?, ScanCursor.position?]

/-- A proper scan that is over stays as it is. -/
theorem Proper.call_of_over (h : Proper w) (hdue : due? w.issued = none) :
    w.call fetch .next = (none, w) := by
  have hnext : w.paging.next (noting fetch) (w.state, w.issued) = _ :=
    next_of_over (h.stands.trans hdue) _
  unfold Noted.call
  simp only [hnext]

/-- Otherwise it issues the round that is due, and no other. -/
theorem Proper.call_of_due (h : Proper w) {cursor : Nat} (hdue : due? w.issued = some cursor) :
    w.call fetch .next = (some ((fetch cursor w.state).1.map Page.items),
      ⟨w.paging.moved (fetch cursor w.state).1, (fetch cursor w.state).2,
        w.issued ++ [(cursor, (fetch cursor w.state).1)]⟩) := by
  have hnext : w.paging.next (noting fetch) (w.state, w.issued) = _ :=
    next_of_due (h.stands.trans hdue) _
  unfold Noted.call
  simp only [hnext]
  rfl

/-- What the first round asks for and what later ones do, with one round more. -/
theorem handedOn_append {rounds : List (Nat × Except ε (Page α))}
    (round : Nat × Except ε (Page α)) (hdue : due? rounds = some round.1)
    (hfirst : ∀ round ∈ rounds.head?, round.1 = 0)
    (hchain : rounds.IsChain fun earlier later => handsOn? earlier.2 = some later.1) :
    (∀ first ∈ (rounds ++ [round]).head?, first.1 = 0) ∧
      (rounds ++ [round]).IsChain fun earlier later => handsOn? earlier.2 = some later.1 := by
  unfold due? at hdue
  cases hlast : rounds.getLast? with
  | none =>
      obtain rfl := List.getLast?_eq_none_iff.mp hlast
      rw [hlast] at hdue
      exact ⟨by simpa using (Option.some.inj hdue).symm, .singleton _⟩
  | some last =>
      rw [hlast] at hdue
      refine ⟨?_, hchain.append (.singleton _) (by simpa [hlast] using hdue)⟩
      cases rounds with
      | nil => simp at hlast
      | cons first rest => exact hfirst

/-- A scan stays proper, whatever its client does. -/
theorem Proper.call (h : Proper w) (call : Call) : Proper (w.call fetch call).2 := by
  cases call with
  | restart => exact proper_start w.state
  | next =>
      cases hdue : due? w.issued with
      | none => rwa [h.call_of_over hdue]
      | some cursor =>
          obtain ⟨hfirst, hchain⟩ := handedOn_append (cursor, (fetch cursor w.state).1)
            hdue h.first h.handedOn
          rw [h.call_of_due hdue]
          refine ⟨?_, ?_, hfirst, hchain⟩
          · rw [position?_moved]
            simp [due?]
          · rw [rounds_moved, h.counted]
            simp

theorem proper_after (fetch : Nat → σ → Except ε (Page α) × σ) (s : σ) (calls : List Call) :
    Proper (after fetch s calls) := by
  have hrun : ∀ w : Noted σ ε α, Proper w →
      Proper (calls.foldl (fun w call => (w.call fetch call).2) w) := by
    induction calls with
    | nil => exact fun _ h => h
    | cons call rest ih => exact fun w h => ih _ (h.call call)
  exact hrun _ (proper_start s)

/-- Where answers do not depend on the state, neither do the pages of a scan. -/
theorem yields_of_stateless (h : ∀ cursor s s', (fetch cursor s).1 = (fetch cursor s').1)
    (count : Nat) (p : Paging) (s s' : σ) : yields fetch count p s = yields fetch count p s' := by
  induction count generalizing p s s' with
  | zero => rfl
  | succ count ih =>
      cases hposition : p.cursor.position? with
      | none =>
          simp only [yields, next_of_over hposition]
          rw [ih p s s']
      | some cursor =>
          simp only [yields, next_of_due hposition]
          rw [h cursor s s', ih _ (fetch cursor s).2 (fetch cursor s').2]

/-! ### The protocol -/

/-- **The protocol of a scan.**  Through whatever function a scan fetches its pages, and however
often it was asked for pages and started anew, the first round since the last start asks for cursor
zero and every other for the cursor that the one before it was handed, and as many rounds are
counted.  If no cursor is due, the last round having failed or been handed zero, asking for a page
yields none, issues no round and leaves the scan as it is.  If one is due, a single round is issued,
with that cursor, and what it answers is what is yielded.  So if answers do not depend on a state, a
scan that is started anew yields what a new scan does, page by page and to its end. -/
theorem protocol (fetch : Nat → σ → Except ε (Page α) × σ) (s : σ) (calls : List Call) :
    (∀ round ∈ (after fetch s calls).issued.head?, round.1 = 0) ∧
      ((after fetch s calls).issued.IsChain fun earlier later =>
        handsOn? earlier.2 = some later.1) ∧
      (after fetch s calls).paging.rounds = (after fetch s calls).issued.length ∧
      (due? (after fetch s calls).issued = none →
        (after fetch s calls).call fetch .next = (none, after fetch s calls)) ∧
      (∀ cursor, due? (after fetch s calls).issued = some cursor →
        let answered := fetch cursor (after fetch s calls).state
        ((after fetch s calls).call fetch .next).1 = some (answered.1.map Page.items) ∧
          (after fetch s (calls ++ [.next])).issued =
            (after fetch s calls).issued ++ [(cursor, answered.1)] ∧
          (after fetch s (calls ++ [.next])).state = answered.2) ∧
      ((∀ cursor s₁ s₂, (fetch cursor s₁).1 = (fetch cursor s₂).1) → ∀ count s',
        yields fetch count (after fetch s calls).paging.restart (after fetch s calls).state =
          yields fetch count start s') := by
  have hproper := proper_after fetch s calls
  have hnext : after fetch s (calls ++ [.next]) = ((after fetch s calls).call fetch .next).2 := by
    simp only [after, List.foldl_append, List.foldl_cons, List.foldl_nil]
  refine ⟨hproper.first, hproper.handedOn, hproper.counted, hproper.call_of_over, ?_, ?_⟩
  · intro cursor hdue
    have hcall : (after fetch s calls).call fetch .next = _ := hproper.call_of_due hdue
    rw [hnext, hcall]
    exact ⟨rfl, rfl, rfl⟩
  · intro hstateless count s'
    exact yields_of_stateless hstateless count start _ s'

/-- A store that has one page and fails to fetch the other. -/
def onePage (cursor : Nat) (s : Unit) : Except String (Page Nat) × Unit :=
  if cursor = 0 then (.ok ⟨3, [1]⟩, s) else (.error "down", s)

theorem protocol_onePage :
    (after onePage () [.next]).call onePage .next =
        (some (.error "down"), after onePage () [.next, .next]) ∧
      (after onePage () [.next, .next]).call onePage .next =
        (none, after onePage () [.next, .next]) ∧
      yields onePage 3 (after onePage () [.next, .next]).paging.restart () =
        [some (.ok [1]), some (.error "down"), none] := by
  obtain ⟨-, -, -, -, hdue, -⟩ := protocol onePage () [.next]
  obtain ⟨-, -, -, hover, -, hanew⟩ := protocol onePage () [.next, .next]
  refine ⟨?_, hover rfl, ?_⟩
  · obtain ⟨hyield, -, -⟩ := hdue 3 rfl
    exact Prod.ext hyield rfl
  · refine (hanew (fun cursor _ _ => ?_) 3 ()).trans rfl
    rfl

end KeyedRelations.Paging
