import KeyedRelations.Proofs.Records
import KeyedRelations.Proofs.Scan.Whole
import KeyedRelations.Proofs.Store.Journal
import KeyedRelations.Store.Scripted

/-!
# Scans of stores that keep no promise

A store may answer the rounds of a scan as it likes: with empty pages, with names that it has
answered before, with cursors that lead anywhere, or with a failure.  The scan goes on from the
cursor that the last round returned until that is zero, and keeps the first item of each name.
The values of lists are read afterwards, name by name.  The first failure ends it all, and
nothing is sent behind it.

`Collection.sends_scanAll` says this of all stores.  The course of the rounds is a trace of its
own, `ScanRequest.Asks`, which knows nothing of what is collected.
-/

namespace KeyedRelations

variable {σ : Type}

/-! ### What is sent -/

/-- Over a store a program sends commands, in order, comes to a result and leaves the store in
a state. -/
structure Program.Sends {α : Type} (h : Handler σ) (program : Program α) (s : σ)
    (commands : List Command) (result : Except StoreError α) (s' : σ) : Prop where
  run : program.run h s = (result, s')
  commands : program.commands h s = commands

namespace Program.Sends

variable {α β : Type} {h : Handler σ} {s s' s'' : σ} {commands more : List Command}

theorem done (h : Handler σ) (a : α) (s : σ) : (Program.done a).Sends h s [] (.ok a) s :=
  ⟨rfl, rfl⟩

theorem command_ok {c : Command} {next : c.Answer → Program α} {answer : c.Answer}
    {result : Except StoreError α} (hperform : h.perform c s = (.ok answer, s'))
    (hnext : (next answer).Sends h s' commands result s'') :
    (Program.command c next).Sends h s (c :: commands) result s'' where
  run := by rw [Program.run, hperform]; exact hnext.run
  commands := by
    rw [Program.commands, exchanges_command, hperform, List.map_cons]
    exact congrArg (c :: ·) hnext.commands

theorem command_error {c : Command} (next : c.Answer → Program α) {e : StoreError}
    (hperform : h.perform c s = (.error e, s')) :
    (Program.command c next).Sends h s [c] (.error e) s' where
  run := by rw [Program.run, hperform]
  commands := by rw [Program.commands, exchanges_command, hperform]; rfl

theorem bind_ok {program : Program α} {f : α → Program β} {a : α} {result : Except StoreError β}
    (hfirst : program.Sends h s commands (.ok a) s') (hnext : (f a).Sends h s' more result s'') :
    (program.bind f).Sends h s (commands ++ more) result s'' where
  run := by rw [run_bind, hfirst.run]; exact hnext.run
  commands := by
    rw [Program.commands, exchanges_bind, hfirst.run, List.map_append]
    exact congrArg₂ (· ++ ·) hfirst.commands hnext.commands

theorem bind_error {program : Program α} (f : α → Program β) {e : StoreError}
    (hfirst : program.Sends h s commands (.error e) s') :
    (program.bind f).Sends h s commands (.error e) s' where
  run := by rw [run_bind, hfirst.run]
  commands := by
    rw [Program.commands, exchanges_bind, hfirst.run, List.append_nil]
    exact hfirst.commands

end Program.Sends

/-! ### Rounds -/

/-- The rounds of a scan from a cursor on: the cursors that are asked for, each returned by the
round before, what their pages hold up to the one that returns zero, or the failure of a round,
and the store after the last. -/
inductive ScanRequest.Asks (h : Handler σ) (r : ScanRequest) :
    Nat → σ → List Nat → Except StoreError (List r.Found) → σ → Prop
  /-- The scan ends with a failure. -/
  | failed {cursor : Nat} {s s' : σ} {e : StoreError}
      (hround : h.perform (r.round cursor) s = (.error e, s')) :
      Asks h r cursor s [cursor] (.error e) s'
  /-- The scan ends with a page. -/
  | last {cursor : Nat} {s s' : σ} {page : Page r.Found}
      (hround : h.perform (r.round cursor) s = (.ok page, s')) (hlast : page.cursor = 0) :
      Asks h r cursor s [cursor] (.ok page.items) s'
  /-- The scan goes on. -/
  | further {cursor : Nat} {s s' s'' : σ} {page : Page r.Found} {cursors : List Nat}
      {result : Except StoreError (List r.Found)}
      (hround : h.perform (r.round cursor) s = (.ok page, s')) (hfurther : page.cursor ≠ 0)
      (hrest : Asks h r page.cursor s' cursors result s'') :
      Asks h r cursor s (cursor :: cursors) (result.map (page.items ++ ·)) s''

namespace ScanRequest

variable {h : Handler σ} {r : ScanRequest} {s s' : σ} {cursor : Nat} {cursors : List Nat}
  {result : Except StoreError (List r.Found)}

/-- A scan under way asks exactly its rounds, and collects what they answer. -/
theorem Asks.drain (hasks : r.Asks h cursor s cursors result s') {n : Nat} {paging : Paging}
    (hposition : paging.cursor.position? = some cursor) (hn : cursors.length ≤ n)
    (found : List r.Found) (before : List Exchange) :
    ∃ rounds : List Exchange, rounds.map (·.command) = cursors.map r.round ∧
      paging.drain (fun cursor => Journal.perform h (r.round cursor)) n found ⟨s, before⟩ =
        (some (result.map (addNew found)), ⟨s', before ++ rounds⟩) := by
  induction hasks generalizing n paging found before with
  | @failed cursor s s' e hround =>
      obtain ⟨n, rfl⟩ : ∃ m, n = m + 1 := Nat.exists_eq_add_one.mpr hn
      refine ⟨[⟨r.round cursor, .error e⟩], rfl, ?_⟩
      simp only [Paging.drain, Paging.next, hposition, Journal.perform, hround]
      rfl
  | @last cursor s s' page hround hlast =>
      obtain ⟨n, rfl⟩ : ∃ m, n = m + 1 := Nat.exists_eq_add_one.mpr hn
      refine ⟨[⟨r.round cursor, .ok page⟩], rfl, ?_⟩
      have hdone : (paging.answered page.cursor).cursor = .done := by
        simp [Paging.answered, ScanCursor.advance, hlast]
      simp only [Paging.drain, Paging.next, hposition, Journal.perform, hround]
      rw [Paging.drain_of_done _ n hdone]
      rfl
  | @further cursor s s' s'' page cursors result hround hfurther _ ih =>
      obtain ⟨n, rfl⟩ : ∃ m, n = m + 1 :=
        Nat.exists_eq_add_one.mpr (Nat.lt_of_lt_of_le (Nat.succ_pos _) hn)
      have hnext : (paging.answered page.cursor).cursor.position? = some page.cursor := by
        simp [Paging.answered, ScanCursor.advance, hfurther, ScanCursor.position?]
      obtain ⟨rounds, hrounds, hdrain⟩ := ih hnext (Nat.le_of_succ_le_succ hn)
        (addNew found page.items) (before ++ [⟨r.round cursor, .ok page⟩])
      refine ⟨⟨r.round cursor, .ok page⟩ :: rounds, by rw [List.map_cons, hrounds]; rfl, ?_⟩
      simp only [Paging.drain, Paging.next, hposition, Journal.perform, hround]
      rw [hdrain, List.append_assoc, List.singleton_append]
      cases result with
      | error e => rfl
      | ok items => simp [Except.map, addNew_append]

/-- **A whole scan** asks exactly its rounds, and comes to the first item of each name. -/
theorem Asks.sends_scan (hasks : r.Asks h 0 s cursors result s')
    (hpatience : cursors.length ≤ h.patience s) :
    (Program.scan r).Sends h s (cursors.map r.round) (result.map firsts) s' := by
  have hstart : Paging.start.cursor.position? = some 0 := rfl
  obtain ⟨rounds, hrounds, hdrain⟩ := hasks.drain hstart hpatience [] []
  have hjournal := Program.run_journal h (Program.scan r) s []
  have hrun : (Program.scan r).run (Journal.handler h) ⟨s, []⟩ =
      (result.map firsts, ⟨s', rounds⟩) := by
    simp only [Program.scan, Program.run, Journal.handler, hdrain, List.nil_append]
    cases result with
    | error e => rfl
    | ok items => simp [Except.map, addNew_nil]
  rw [hrun] at hjournal
  obtain ⟨hresult, hstore⟩ := Prod.ext_iff.mp hjournal
  obtain ⟨hafter, hexchanges⟩ := Journal.mk.inj hstore
  refine ⟨Prod.ext hresult.symm hafter.symm, ?_⟩
  rw [Program.commands, ← hrounds, hexchanges, List.nil_append]

end ScanRequest

/-! ### Reading lists -/

/-- Reading names one by one: the names that are asked for, the records that they stand for or
the failure of a read, and the store after the last.  Names that stand for nothing are left
out. -/
inductive Collection.Reads (h : Handler σ) (c : Collection) :
    List String → σ → List String → Except StoreError (Records c.kind) → σ → Prop
  | nil {s : σ} : Reads h c [] s [] (.ok []) s
  | failed {name : String} {names : List String} {s s' : σ} {e : StoreError}
      (hread : h.perform (.read c name) s = (.error e, s')) :
      Reads h c (name :: names) s [name] (.error e) s'
  | absent {name : String} {names asked : List String} {s s' s'' : σ}
      {result : Except StoreError (Records c.kind)}
      (hread : h.perform (.read c name) s = (.ok none, s'))
      (hrest : Reads h c names s' asked result s'') :
      Reads h c (name :: names) s (name :: asked) result s''
  | found {name : String} {names asked : List String} {payload : c.kind.Payload} {s s' s'' : σ}
      {result : Except StoreError (Records c.kind)}
      (hread : h.perform (.read c name) s = (.ok (some payload), s'))
      (hrest : Reads h c names s' asked result s'') :
      Reads h c (name :: names) s (name :: asked) (result.map ((name, payload) :: ·)) s''

namespace Collection

variable {h : Handler σ} {c : Collection}

theorem exists_reads (h : Handler σ) (c : Collection) (names : List String) (s : σ) :
    ∃ asked result s', c.Reads h names s asked result s' := by
  induction names generalizing s with
  | nil => exact ⟨_, _, _, .nil⟩
  | cons name names ih =>
      rcases hread : h.perform (.read c name) s with ⟨⟨e⟩ | ⟨_ | payload⟩, s'⟩
      · exact ⟨_, _, _, .failed hread⟩
      · obtain ⟨asked, result, s'', hrest⟩ := ih s'
        exact ⟨_, _, _, .absent hread hrest⟩
      · obtain ⟨asked, result, s'', hrest⟩ := ih s'
        exact ⟨_, _, _, .found hread hrest⟩

theorem Reads.unique {names asked asked' : List String} {s s' s'' : σ}
    {result result' : Except StoreError (Records c.kind)}
    (hreads : c.Reads h names s asked result s') (hreads' : c.Reads h names s asked' result' s'') :
    asked = asked' ∧ result = result' ∧ s' = s'' := by
  induction hreads generalizing asked' result' s'' with
  | nil =>
      cases hreads'
      exact ⟨rfl, rfl, rfl⟩
  | failed hread =>
      cases hreads' with
      | failed hread' =>
          cases hread.symm.trans hread'
          exact ⟨rfl, rfl, rfl⟩
      | absent hread' | found hread' => cases hread.symm.trans hread'
  | absent hread _ ih =>
      cases hreads' with
      | failed hread' | found hread' => cases hread.symm.trans hread'
      | absent hread' hrest' =>
          cases hread.symm.trans hread'
          obtain ⟨rfl, rfl, rfl⟩ := ih hrest'
          exact ⟨rfl, rfl, rfl⟩
  | found hread _ ih =>
      cases hreads' with
      | failed hread' | absent hread' => cases hread.symm.trans hread'
      | found hread' hrest' =>
          cases hread.symm.trans hread'
          obtain ⟨rfl, rfl, rfl⟩ := ih hrest'
          exact ⟨rfl, rfl, rfl⟩

theorem Reads.sends_readAll {names asked : List String} {s s' : σ}
    {result : Except StoreError (Records c.kind)} (hreads : c.Reads h names s asked result s')
    (found : Records c.kind) :
    (c.readAll found names).Sends h s (asked.map (Command.read c))
      (result.map (found ++ ·)) s' := by
  induction hreads generalizing found with
  | nil =>
      rw [Except.map, List.append_nil]
      exact .done h found _
  | failed hread => exact .command_error _ hread
  | absent hread _ ih => exact .command_ok hread (by simpa using ih found)
  | @found name names asked payload s s' s'' result hread _ ih =>
      refine .command_ok hread ?_
      have hrest := ih (found ++ [(name, payload)])
      cases result with
      | error e => exact hrest
      | ok records => simpa [Except.map] using hrest

/-- **What a scan comes to over any store.**  Let the rounds of the scan, from cursor zero on and
with at least one record to a round, return cursor zero or fail at some time.  The scan sends
exactly these rounds.  If one fails it is over with that failure.  If none does, it comes to the
first item of each name, in order; of a list it reads these names one by one, and sends nothing
behind the first failure.

A handler has a number of rounds after which a scan is given up; it only has to be large
enough. -/
theorem sends_scanAll (h : Handler σ) (c : Collection) (pattern : String) (pageSize : Nat)
    {s s₁ : σ} {cursors : List Nat}
    {result : Except StoreError (List (ScanRequest.mk c pattern (max pageSize 1)).Found)}
    (hasks : ScanRequest.Asks h ⟨c, pattern, max pageSize 1⟩ 0 s cursors result s₁)
    (hpatience : cursors.length ≤ h.patience s) :
    let scan := c.scanAll pattern (roundSize pageSize)
    let rounds := cursors.map fun cursor => Command.scan c cursor pattern (max pageSize 1)
    (∀ e, result = .error e → scan.Sends h s rounds (.error e) s₁) ∧
    (∀ items, result = .ok items → c.kind ≠ .list →
      ∃ records : Records c.kind, records.map (fun r => (r.1, c.kind.item r.2)) = firsts items ∧
        scan.Sends h s rounds (.ok records) s₁) ∧
    (∀ items, result = .ok items → c.kind = .list →
      ∃ asked outcome s₂, c.Reads h ((firsts items).map (·.1)) s₁ asked outcome s₂ ∧
        scan.Sends h s (rounds ++ asked.map (Command.read c)) outcome s₂) := by
  have hscan := hasks.sends_scan hpatience
  obtain ⟨kind, container⟩ := c
  cases kind with
  | list =>
      refine ⟨?_, fun _ _ hkind => absurd rfl hkind, ?_⟩
      · rintro e rfl
        exact hscan.bind_error _
      · rintro items rfl -
        obtain ⟨asked, outcome, s₂, hreads⟩ := exists_reads h ⟨.list, container⟩
          ((firsts items).map (·.1)) s₁
        refine ⟨asked, outcome, s₂, hreads, hscan.bind_ok ?_⟩
        have hread := hreads.sends_readAll []
        cases outcome with
        | error e => exact hread
        | ok records => exact hread
  | set | hash | sortedSet =>
      refine ⟨?_, ?_, ?_⟩
      · rintro e rfl
        exact hscan
      · rintro items rfl -
        exact ⟨firsts items, by simp [Structure.item], hscan⟩
      · intro _ _ hkind
        cases hkind

/-- A store of lists that shows names again, answers one round with an empty page, and has lost
one of the records that it shows. -/
def repeatingNotes : Scripted .list where
  feed := .ofScript [.ok ⟨5, [("a", ()), ("b", ())]⟩, .ok ⟨3, []⟩,
    .ok ⟨0, [("b", ()), ("c", ()), ("a", ())]⟩]
  values := [("c", .ok (.int 3)), ("a", .ok (.int 1))]
  log := []

theorem sends_scanAll_repeatingNotes :
    ∃ s₂, (Collection.scanAll ⟨.list, "notes"⟩ "*" (roundSize 0)).Sends Scripted.handler
      repeatingNotes
      [.scan ⟨.list, "notes"⟩ 0 "*" 1, .scan ⟨.list, "notes"⟩ 5 "*" 1,
        .scan ⟨.list, "notes"⟩ 3 "*" 1, .read ⟨.list, "notes"⟩ "a", .read ⟨.list, "notes"⟩ "b",
        .read ⟨.list, "notes"⟩ "c"]
      (.ok [("a", .int 1), ("c", .int 3)]) s₂ := by
  obtain ⟨asked, outcome, s₂, hreads, hsends⟩ :=
    (sends_scanAll Scripted.handler ⟨.list, "notes"⟩ "*" 0 (s := repeatingNotes)
      (.further rfl (by decide) (.further rfl (by decide) (.last rfl rfl)))
      (by decide)).2.2 _ rfl rfl
  -- what is answered for the three names, one after the other
  obtain ⟨rfl, rfl, rfl⟩ := hreads.unique (.found rfl (.absent rfl (.found rfl .nil)))
  exact ⟨_, hsends⟩

end Collection

end KeyedRelations
