import KeyedRelations.Proofs.Selection.Reading
import KeyedRelations.Store.Scripted

/-!
# Selections are joined readings

A selection carries out one reading after the other: the predicates on keys in the order of the
query, and then the fields that predicates compare, in the order of first mention.  Their records
are joined.  A join looks only at what was found before, so it relies on every reading having
each of its names once; over any store it does (`SubjectPlan.nodup_of_reading`).  A selection
therefore has each name once, with what the first reading held that found it.
-/

namespace KeyedRelations

variable {σ : Type}

/-! ### One reading after the other -/

/-- Programs that are carried out one after the other, what each comes to, and the store after the
last. -/
inductive Program.Turns {α : Type} (h : Handler σ) : List (Program α) → σ → List α → σ → Prop
  | nil {s : σ} : Turns h [] s [] s
  | cons {program : Program α} {programs : List (Program α)} {a : α} {results : List α}
      {s s' s'' : σ} (hrun : program.run h s = (.ok a, s'))
      (hrest : Turns h programs s' results s'') :
      Turns h (program :: programs) s (a :: results) s''

/-- What holds of all that the programs can come to holds of what they came to. -/
theorem Program.Turns.forall {α : Type} {h : Handler σ} {programs : List (Program α)}
    {results : List α} {s s' : σ} {Q : α → Prop} (hturns : Turns h programs s results s')
    (hQ : ∀ program ∈ programs, ∀ s a s', program.run h s = (.ok a, s') → Q a) :
    ∀ a ∈ results, Q a := by
  induction hturns with
  | nil => simp
  | cons hrun _ ih =>
      rw [List.forall_mem_cons] at hQ ⊢
      exact ⟨hQ.1 _ _ _ hrun, ih hQ.2⟩

namespace Records

variable {k : Structure}

/-- Joins to `found` what programs read, one after the other. -/
def joinAll (found : Records k) : List (Program (Records k)) → Program (Records k)
  | [] => .done found
  | reading :: rest => reading.bind fun more => joinAll (found.join more) rest

theorem joinAll_append (found : Records k) (readings more : List (Program (Records k))) :
    joinAll found (readings ++ more) =
      (joinAll found readings).bind fun found => joinAll found more := by
  induction readings generalizing found with
  | nil => rfl
  | cons reading readings ih =>
      rw [List.cons_append, joinAll, joinAll, Program.bind_assoc]
      congr 1
      funext records
      exact ih _

theorem turns_of_joinAll {h : Handler σ} {found result : Records k}
    {programs : List (Program (Records k))} {s s' : σ}
    (hrun : (joinAll found programs).run h s = (.ok result, s')) :
    ∃ readings, Program.Turns h programs s readings s' ∧ result = readings.foldl join found := by
  induction programs generalizing found s with
  | nil =>
      obtain ⟨rfl, rfl⟩ : found = result ∧ s = s' := by simpa [joinAll, Program.run] using hrun
      exact ⟨[], .nil, rfl⟩
  | cons program programs ih =>
      obtain ⟨more, s₁, hfirst, hrest⟩ := Program.run_bind_eq_ok_iff.mp hrun
      obtain ⟨readings, hturns, hresult⟩ := ih hrest
      exact ⟨more :: readings, .cons hfirst hturns, hresult⟩

/-- Joining records that have each name once collects them. -/
theorem foldl_join {readings : List (Records k)} (hnodup : ∀ r ∈ readings, r.names.Nodup)
    (found : Records k) : readings.foldl join found = addNew found readings.flatten := by
  induction readings generalizing found with
  | nil => rfl
  | cons reading readings ih =>
      rw [List.forall_mem_cons] at hnodup
      have hjoin : found.join reading = addNew found reading := by
        rw [← join_firsts, firsts_of_nodup hnodup.1]
      rw [List.foldl_cons, ih hnodup.2, hjoin, List.flatten_cons, addNew_append]

end Records

/-- Record sets of one structure are joined by their records. -/
theorem RecordSet.foldl_join (k : Structure) (readings : List (Records k)) (found : Records k) :
    (readings.map (RecordSet.mk k)).foldl RecordSet.join ⟨k, found⟩ =
      ⟨k, readings.foldl Records.join found⟩ := by
  induction readings generalizing found with
  | nil => rfl
  | cons reading readings ih =>
      rw [List.map_cons, List.foldl_cons, List.foldl_cons, ← ih]
      simp [join]

/-! ### The readings of a selection -/

namespace Collection

variable {c : Collection} {h : Handler σ} {s s' : σ}

/-- Over any store, reading names one by one finds some of them, in their order. -/
theorem names_of_readAll {found result : Records c.kind} {names : List String}
    (hrun : (c.readAll found names).run h s = (.ok result, s')) :
    ∃ more : Records c.kind, result = found ++ more ∧ more.names.Sublist names := by
  induction names generalizing found s with
  | nil =>
      obtain ⟨rfl, -⟩ : found = result ∧ s = s' := by simpa [readAll, Program.run] using hrun
      exact ⟨[], by simp, List.nil_sublist _⟩
  | cons name names ih =>
      obtain ⟨held, s₁, -, hrest⟩ := Program.run_command_eq_ok_iff.mp hrun
      obtain ⟨more, rfl, hnames⟩ := ih hrest
      rw [List.append_assoc]
      refine ⟨_, rfl, ?_⟩
      cases held with
      | none => exact hnames.cons name
      | some payload => exact hnames.cons_cons name

theorem nodup_of_readAll {found : Records c.kind} {names : List String} (hnames : names.Nodup)
    (hrun : (c.readAll [] names).run h s = (.ok found, s')) : found.names.Nodup := by
  obtain ⟨more, rfl, hsublist⟩ := names_of_readAll hrun
  exact hnames.sublist hsublist

/-- **Scanning any store for records** finds each name once. -/
theorem nodup_of_scanAll {pattern : String} {count : Nat} {found : Records c.kind}
    (hrun : (c.scanAll pattern count).run h s = (.ok found, s')) : found.names.Nodup := by
  obtain ⟨kind, container⟩ := c
  cases kind with
  | list =>
      obtain ⟨items, s₁, hscan, hread⟩ := Program.run_bind_eq_ok_iff.mp hrun
      exact nodup_of_readAll (Program.nodup_of_scan hscan) hread
  | set | hash | sortedSet => exact Program.nodup_of_scan hrun

end Collection

namespace SubjectPlan

variable {p : SubjectPlan} {h : Handler σ} {s s' : σ}

/-- Reads a field, and keeps it if it holds what is asked of it. -/
def findField (p : SubjectPlan) (field : String) : Program (Records p.kind) :=
  .command (.read p.collection (p.entity.recordName field)) fun held =>
    .done ((held.map fun payload => (p.entity.recordName field, payload)).toList.filter fun r =>
      p.fieldHolds field r.2)

/-- The readings of a selection in the order in which they are carried out. -/
def readings (p : SubjectPlan) (pageSize : Nat) : List (Program (Records p.kind)) :=
  if p.isFullScan then [p.collection.scanAll (p.pattern "*") (roundSize pageSize)]
  else
    (p.predicates.filter fun c => !p.testsField c).map (p.findBy pageSize) ++
      p.fields.map p.findField

theorem findByKeys_eq (pageSize : Nat) (found : Records p.kind) (predicates : List Predicate) :
    p.findByKeys pageSize found predicates =
      found.joinAll (predicates.map (p.findBy pageSize)) := by
  induction predicates generalizing found with
  | nil => rfl
  | cons c rest ih =>
      rw [findByKeys, List.map_cons, Records.joinAll]
      congr 1
      funext more
      exact ih _

theorem findByFields_eq (found : Records p.kind) (fields : List String) :
    p.findByFields found fields = found.joinAll (fields.map p.findField) := by
  induction fields generalizing found with
  | nil => rfl
  | cons field rest ih =>
      rw [findByFields_cons, List.map_cons, Records.joinAll, findField, Program.bind]
      congr 1
      funext held
      exact ih _

/-- **A selection joins its readings** to nothing. -/
theorem select_eq (p : SubjectPlan) (pageSize : Nat) :
    p.select pageSize = Records.joinAll [] (p.readings pageSize) := by
  rw [select, readings]
  split
  · have hjoin : ∀ found : Records p.kind, Records.join [] found = found := by
      simp [Records.join, Records.names]
    simp only [Records.joinAll, hjoin]
    exact (Program.bind_done _).symm
  · rw [Records.joinAll_append, findByKeys_eq]
    congr 1
    funext found
    exact findByFields_eq found p.fields

theorem nodup_of_findBy {pageSize : Nat} {c : Predicate} {found : Records p.kind}
    (hrun : (p.findBy pageSize c).run h s = (.ok found, s')) : found.names.Nodup := by
  rw [findBy] at hrun
  cases hop : c.op with
  | glob =>
      rw [hop] at hrun
      exact Collection.nodup_of_scanAll hrun
  | eq =>
      rw [hop] at hrun
      exact Collection.nodup_of_readAll (List.nodup_singleton _) hrun

theorem nodup_of_findField {field : String} {found : Records p.kind}
    (hrun : (p.findField field).run h s = (.ok found, s')) : found.names.Nodup := by
  obtain ⟨held, s₁, -, hdone⟩ := Program.run_command_eq_ok_iff.mp hrun
  cases hdone
  have hheld : Records.names
      (held.map fun payload => (p.entity.recordName field, payload)).toList |>.Nodup := by
    cases held <;> simp [Records.names]
  exact hheld.sublist (List.filter_sublist.map _)

/-- **Every reading**, over any store, has each name once. -/
theorem nodup_of_reading {pageSize : Nat} {reading : Program (Records p.kind)}
    (hmem : reading ∈ p.readings pageSize) {found : Records p.kind}
    (hrun : reading.run h s = (.ok found, s')) : found.names.Nodup := by
  rw [readings] at hmem
  split at hmem
  · obtain rfl := List.mem_singleton.mp hmem
    exact Collection.nodup_of_scanAll hrun
  · rcases List.mem_append.mp hmem with hmem | hmem
    · obtain ⟨c, -, rfl⟩ := List.mem_map.mp hmem
      exact nodup_of_findBy hrun
    · obtain ⟨field, -, rfl⟩ := List.mem_map.mp hmem
      exact nodup_of_findField hrun

/-- **What a selection has found over any store**, however the store repeats itself and changes
between reads, and whatever is planned: records with names of their own, which its readings have
found, carried out one after the other.  Each holds what it held in the first reading that found
it.  The records are the readings joined as sets of the structure of the plan. -/
theorem select_joins (h : Handler σ) (p : SubjectPlan) (pageSize : Nat) {s s' : σ}
    {found : Records p.kind} (hrun : (p.select pageSize).run h s = (.ok found, s')) :
    found.names.Nodup ∧
    ∃ readings : List (Records p.kind), Program.Turns h (p.readings pageSize) s readings s' ∧
      found = firsts readings.flatten ∧
      (∀ name, found.find? (·.1 = name) =
        readings.findSome? fun reading => reading.find? (·.1 = name)) ∧
      RecordSet.mk p.kind found =
        (readings.map (RecordSet.mk p.kind)).foldl RecordSet.join (.empty p.kind) := by
  rw [select_eq] at hrun
  obtain ⟨readings, hturns, hfound⟩ := Records.turns_of_joinAll hrun
  have hnodup : ∀ reading ∈ readings, reading.names.Nodup :=
    hturns.forall fun program hmem _ _ _ => nodup_of_reading hmem
  have hfirsts : found = firsts readings.flatten := by
    rw [hfound, Records.foldl_join hnodup, addNew_nil]
  refine ⟨?_, readings, hturns, hfirsts, ?_, ?_⟩
  · rw [hfirsts]
    exact nodup_firsts _
  · intro name
    rw [hfirsts, find?_firsts, List.find?_flatten]
  · rw [hfound]
    exact (RecordSet.foldl_join p.kind readings []).symm

/-- Users of whom a glob asks for all, and the field `b` is compared. -/
def comparedUsers : SubjectPlan where
  name := "u"
  entity := (Entity.ofName "users").withKeyPrefix "u:"
  kind := .hash
  predicates := [⟨"u", "b", .eq, .int 5⟩, ⟨"u", "key", .glob, .text "*"⟩]
  columns := []

/-- A store whose scan shows a field twice, and in which another has changed when it is read. -/
def changingUsers : Scripted .hash where
  feed := .ofScript [.ok ⟨7, [("u:a", .int 1), ("u:b", .int 2)]⟩, .ok ⟨0, [("u:a", .int 9)]⟩]
  values := [("u:b", .ok (.int 5))]
  log := []

theorem select_joins_changingUsers :
    ∃ s', (comparedUsers.select 10).run Scripted.handler changingUsers =
        (.ok [("u:a", .int 1), ("u:b", .int 2)], s') ∧
      ∃ readings, Program.Turns Scripted.handler (comparedUsers.readings 10) changingUsers
          readings s' ∧
        [("u:a", .int 1), ("u:b", .int 2)] = firsts readings.flatten := by
  have hrun : (comparedUsers.select 10).run Scripted.handler changingUsers =
      (.ok [("u:a", .int 1), ("u:b", .int 2)], _) := rfl
  obtain ⟨-, readings, hturns, hfound, -⟩ := select_joins _ _ _ hrun
  exact ⟨_, hrun, readings, hturns, hfound⟩

end SubjectPlan

end KeyedRelations
