import KeyedRelations.Proofs.Scan.Outcome
import KeyedRelations.Proofs.Store.Cursors
import KeyedRelations.Proofs.Store.Stepping

/-!
# Reading command by command

A program that reads sends one command after the other while the trees stay as they are, but
not the cursors, as other clients have theirs.  Between two rounds of a scan it has one cursor
open, and behind the key of that cursor lies what its scan has still to show.  So at every
moment it is settled what the program comes to and how many commands it sends at most
(`Program.Reading`).  One command gives up the cursor that the program has, may open another,
and brings the program nearer to its result (`Program.Reading.goes`).
-/

namespace KeyedRelations

namespace Program

variable {α β : Type} {t : Trees}

/-! ### Reading under way -/

/-- How many commands a program sends at most. -/
def effort (t : Trees) : Program α → Nat
  | done _ => 0
  | command c next =>
    match ((Store.ofTrees t).perform c).1 with
    | .ok answer => (next answer).effort t + 1
    | .error _ => 1
  | drain request _ _ next =>
    match request.whole t with
    | .ok items => (next items).effort t + t.size + 1
    | .error _ => t.size + 1

/-- What a program comes to that goes on with what a scan has shown, if it has not failed. -/
def resultOf (t : Trees) (next : β → Program α) : Except StoreError β → Except StoreError α
  | .ok items => ((next items).outcome t).1
  | .error e => .error e

/-- How many commands it sends then at most. -/
def effortOf (t : Trees) (next : β → Program α) : Except StoreError β → Nat
  | .ok items => (next items).effort t
  | .error _ => 0

theorem outcome_drain (t : Trees) (request : ScanRequest) (paging : Paging)
    (found : List request.Found) (next : List request.Found → Program α) :
    ((drain request paging found next).outcome t).1 = resultOf t next (request.whole t) := by
  rw [outcome]
  cases request.whole t <;> rfl

theorem effort_drain (t : Trees) (request : ScanRequest) (paging : Paging)
    (found : List request.Found) (next : List request.Found → Program α) :
    (drain request paging found next).effort t =
      effortOf t next (request.whole t) + t.size + 1 := by
  rw [effort]
  cases request.whole t with
  | error e => simp only [effortOf, Nat.zero_add]
  | ok items => rfl

/-- A program that reads, with the cursor that it has open, a bound on the commands that it is
still to send, and what it comes to. -/
inductive Reading (t : Trees) :
    Program α → Option (Nat × Key) → Nat → Except StoreError α → Prop
  /-- It is not scanning. -/
  | fresh {program : Program α} {n : Nat} (hplain : program.Plain) (hread : program.ReadOnly)
      (hn : program.effort t ≤ n) : Reading t program none n (program.outcome t).1
  /-- It is between two rounds of a scan, and goes on behind a key. -/
  | between {request : ScanRequest} {rounds cursor n : Nat} {found : List request.Found}
      {next : List request.Found → Program α} {base key : Key}
      (hbase : request.collection.base = .ok base)
      (hrange : Store.rangeOf base request.pattern <+: key) (hcursor : cursor ≠ 0)
      (hfound : ∀ x ∈ found, Glob.accepts request.pattern x.1 = true)
      (hplain : ∀ items, (∀ x ∈ items, Glob.accepts request.pattern x.1 = true) →
        (next items).Plain)
      (hread : ∀ items, (next items).ReadOnly)
      (hn : effortOf t next ((request.collection.rest t base request.pattern
          (.after key)).map (addNew found)) +
        ((t.tree request.collection.kind).ahead (.after key)
          (Store.rangeOf base request.pattern)).length + 1 ≤ n) :
      Reading t (.drain request ⟨.at cursor, rounds⟩ found next) (some (cursor, key)) n
        (resultOf t next ((request.collection.rest t base request.pattern
          (.after key)).map (addNew found)))
  /-- Its scan is over. -/
  | scanned {request : ScanRequest} {rounds n : Nat} {found : List request.Found}
      {next : List request.Found → Program α} {r : Except StoreError α}
      (h : Reading t (next found) none n r) :
      Reading t (.drain request ⟨.done, rounds⟩ found next) none n r

/-- What comes of a command that a reading program sends to a store. -/
inductive Goes (t : Trees) (w : Waiting α) (st : Store) (left : Cursors) (n : Nat)
    (r : Except StoreError α) : Prop
  | fails {e : StoreError} (hperform : st.perform w.command = (.error e, ⟨t, left⟩))
      (hm : 0 < n) (hr : r = .error e)
  /-- The program has no cursor then. -/
  | closes {answer : w.command.Answer} {m : Nat}
      (hperform : st.perform w.command = (.ok answer, ⟨t, left⟩)) (hm : m < n)
      (h : Reading t (w.next answer) none m r)
  /-- The program has a new one. -/
  | opens {answer : w.command.Answer} {m : Nat} {key : Key}
      (hperform : st.perform w.command = (.ok answer, ⟨t, (left.issue key).2⟩)) (hm : m < n)
      (h : Reading t (w.next answer) (some (left.next, key)) m r)

/-- The command for the next round of a scan. -/
abbrev nextRound (request : ScanRequest) (paging : Paging) (cursor : Nat)
    (found : List request.Found) (next : List request.Found → Program α) : Waiting α :=
  ⟨request.round cursor, fun page =>
    drain request (paging.answered page.cursor) (addNew found page.items) next⟩

/-- A round brings a scan on. -/
theorem goes_of_round {request : ScanRequest} {paging : Paging} {found : List request.Found}
    {next : List request.Found → Program α} {base : Key} {bound : Store.Bound}
    {cursors left : Cursors} {cursor n : Nat} (hbase : request.collection.base = .ok base)
    (hresume : Store.resume? cursors cursor (Store.rangeOf base request.pattern) =
      some (bound, left))
    (hpast : bound.Past (Store.rangeOf base request.pattern))
    (hfound : ∀ x ∈ found, Glob.accepts request.pattern x.1 = true)
    (hplain : ∀ items, (∀ x ∈ items, Glob.accepts request.pattern x.1 = true) →
      (next items).Plain)
    (hread : ∀ items, (next items).ReadOnly)
    (hn : effortOf t next ((request.collection.rest t base request.pattern bound).map
        (addNew found)) +
      ((t.tree request.collection.kind).ahead bound
        (Store.rangeOf base request.pattern)).length + 1 ≤ n) :
    Goes t (nextRound request paging cursor found next) ⟨t, cursors⟩ left n
      (resultOf t next ((request.collection.rest t base request.pattern bound).map
        (addNew found))) := by
  -- whatever a page shows has names that match
  have hmore : ∀ page st', Store.scan request.collection cursor request.pattern request.count
      ⟨t, cursors⟩ = (.ok page, st') → ∀ x ∈ addNew found page.items,
        Glob.accepts request.pattern x.1 = true := by
    intro page st' hscan x hx
    rcases mem_or_mem_of_mem_addNew hx with hx | hx
    · exact hfound x hx
    · exact (Store.reveals_of_scan hscan hx).accepts
  rcases Store.scan_rest ⟨t, cursors⟩ hbase hresume hpast request.count with
    ⟨e, hrest, hscan⟩ | ⟨items, hrest, hscan⟩ | ⟨key, items, hrange, hrest, hfewer, hscan⟩
  · refine .fails hscan (by omega) ?_
    rw [hrest]
    rfl
  · have hall := hmore _ _ hscan
    rw [hrest] at hn ⊢
    refine .closes (m := (next (addNew found items)).effort t) hscan ?_
      (.scanned (.fresh (hplain _ hall) (hread _) (Nat.le_refl _)))
    simp only [Except.map, effortOf] at hn
    omega
  · have hall := hmore _ _ hscan
    have hsame : ((request.collection.rest t base request.pattern (.after key)).map
          (items ++ ·)).map (addNew found) =
        (request.collection.rest t base request.pattern (.after key)).map
          (addNew (addNew found items)) := by
      cases request.collection.rest t base request.pattern (.after key) with
      | error e => rfl
      | ok more => simp [Except.map, addNew_append]
    rw [hrest, hsame] at hn ⊢
    exact .opens hscan (Nat.lt_of_lt_of_le (Nat.add_lt_add_right
      (Nat.add_lt_add_left hfewer _) 1) hn) (.between hbase hrange (Nat.succ_ne_zero _) hall hplain
        hread (Nat.le_refl _))

/-- A program that reads and is not scanning goes on to its outcome. -/
theorem goes_of_plain {program : Program α} {w : Waiting α} {n : Nat} (hplain : program.Plain)
    (hread : program.ReadOnly) (hn : program.effort t ≤ n) (hw : program.step? = .inr w)
    (cursors : Cursors) : Goes t w ⟨t, cursors⟩ cursors n (program.outcome t).1 := by
  cases hplain with
  | done a => cases hw
  | @command c next hscan hnext =>
      obtain rfl := Sum.inr.inj hw
      cases hread with
      | command hwrite hread =>
          have hperform := Store.perform_of_not_isScan hscan t cursors
          have htrees := Store.perform_trees_of_not_isWrite hwrite (Store.ofTrees t)
          rw [htrees] at hperform
          rw [effort] at hn
          rw [outcome]
          rcases hfirst : (Store.ofTrees t).perform c with ⟨⟨e⟩ | ⟨answer⟩, st⟩
          · rw [hfirst] at hperform
            rw [hfirst] at hn
            exact .fails hperform hn rfl
          · rw [hfirst] at hperform hn htrees
            obtain rfl : st.trees = t := htrees
            exact .closes hperform hn (.fresh (hnext answer) (hread answer) (Nat.le_refl _))
  | @drain request next hnext =>
      obtain rfl := Sum.inr.inj hw
      cases hread with
      | drain hread =>
          rw [outcome_drain]
          rw [effort_drain] at hn
          cases hbase : request.collection.base with
          | error e =>
              have hscan : Store.scan request.collection 0 request.pattern request.count
                  ⟨t, cursors⟩ = (.error e, ⟨t, cursors⟩) := by rw [Store.scan, hbase]
              rw [ScanRequest.whole_of_base_error hbase]
              exact .fails hscan (by omega) rfl
          | ok base =>
              have hresume := Store.resume?_start cursors (Store.rangeOf base request.pattern)
              have hahead := t.length_ahead_le request.collection.kind
                (.atOrAfter (Store.rangeOf base request.pattern))
                (Store.rangeOf base request.pattern)
              rw [ScanRequest.whole_of_base hbase] at hn ⊢
              exact goes_of_round hbase hresume (Store.Bound.past_atOrAfter _) (by simp) hnext
                hread (by omega)

namespace Reading

variable {program : Program α} {own : Option (Nat × Key)} {n : Nat} {r : Except StoreError α}

/-- **One command of a program that reads** leaves the trees as they are, gives up the cursor
that the program has open, and brings it nearer to its result. -/
theorem goes (h : Reading t program own n r) {w : Waiting α} (hw : program.step? = .inr w)
    {cursors : Cursors}
    (hopen : ∀ cursor key, own = some (cursor, key) → cursors.key? cursor = some key) :
    Goes t w ⟨t, cursors⟩ (cursors.without own) n r := by
  induction h with
  | fresh hplain hread hn => exact goes_of_plain hplain hread hn hw cursors
  | scanned h ih => exact ih hw hopen
  | @between request rounds cursor n found next base key hbase hrange hcursor hfound hplain hread
      hn =>
      obtain rfl := Sum.inr.inj hw
      have hresume := Store.resume?_of_key? (hopen cursor key rfl) hcursor
        (Store.rangeOf base request.pattern)
      exact goes_of_round hbase hresume (Store.Bound.past_after hrange) hfound hplain hread hn

/-- A program that is done has come to its result. -/
theorem finish (h : Reading t program own n r) {a : α} (hw : program.step? = .inl a) :
    own = none ∧ r = .ok a := by
  induction h with
  | fresh hplain hread hn =>
      cases hplain with
      | done a' =>
          obtain rfl := Sum.inl.inj hw
          exact ⟨rfl, rfl⟩
      | command => cases hw
      | drain => cases hw
  | scanned h ih => exact ⟨rfl, (ih hw).2⟩
  | between => cases hw

end Reading

end Program

end KeyedRelations
