import Mathlib
import KeyedRelations.Proofs.Mutation
import KeyedRelations.Proofs.Mutation.Presence
import KeyedRelations.Proofs.Store.Retry
import KeyedRelations.Proofs.Store.Stepping

/-!
# Clients that write at the same time

Any number of clients insert, update and delete over one store and take turns command by
command, so a client acts on what it has read a while ago.  Nevertheless no effect is lost and
none is counted twice: for every record, the insertions that report it less the deletions that
report it are what its presence has changed by.

A query under way will report what it has affected so far and more (`Job.Underway`), and every
command adds to that as much as it adds to the presence of a record (`Job.Underway.send`).  So
the books of a run are right at every moment (`Crowd.Accounted`), and when nobody is at work
any more they consist of the reports alone.
-/

namespace KeyedRelations

/-! ### Clients -/

/-- A query that a client is carrying out: its action, the collection that it writes to, and
the rest of its program. -/
structure Job where
  action : Action
  collection : Collection
  program : Program (List String)

/-- What a query that came to its end has reported: the names of the records that it wrote or
removed. -/
structure Affected where
  action : Action
  collection : Collection
  names : List String

/-- A client: the query under way, if it is not idle, and the reports of those that came to
their end. -/
structure Client where
  job : Option Job
  reports : List Affected

namespace Client

/-- What a client can do next with a store: itself and the store afterwards. -/
inductive Turn (st : Store) : Client → Client → Store → Prop
  /-- An idle client starts any query that is not refused and does not replace. -/
  | start (reports : List Affected) {p : SubjectPlan} {origin : Origin}
      {assignments : List Assignment} {pageSize : Nat} {action : Action}
      {program : Program (List String)} (haction : action ≠ .replace)
      (hprogram : p.mutation origin assignments pageSize action = .ok program) :
      Turn st ⟨none, reports⟩ ⟨some ⟨action, p.collection, program⟩, reports⟩ st
  /-- A busy client sends the next command, which is tried as often as it takes. -/
  | send (reports : List Affected) {job : Job} {w : Program.Waiting (List String)}
      (stale : Store.Stale) {answer : w.command.Answer} {after : Store}
      (hstep : job.program.step? = .inr w)
      (hperform : st.performRetrying stale w.command = (.ok answer, after)) :
      Turn st ⟨some job, reports⟩ ⟨some { job with program := w.next answer }, reports⟩ after
  /-- The next command fails, and with it the query. -/
  | fail (reports : List Affected) {job : Job} {w : Program.Waiting (List String)}
      (stale : Store.Stale) {e : StoreError} {after : Store}
      (hstep : job.program.step? = .inr w)
      (hperform : st.performRetrying stale w.command = (.error e, after)) :
      Turn st ⟨some job, reports⟩ ⟨none, reports⟩ after
  /-- The query comes to its end and is reported. -/
  | finish (reports : List Affected) {job : Job} {names : List String}
      (hstep : job.program.step? = .inl names) :
      Turn st ⟨some job, reports⟩
        ⟨none, reports ++ [⟨job.action, job.collection, names⟩]⟩ st

/-- How often reports of an action are about a key of a structure. -/
def reported (client : Client) (action : Action) (kind : Structure) (key : Key) : Int :=
  ((client.reports.filter (·.action = action)).map fun report =>
    report.collection.count report.names kind key).sum

end Client

/-! ### Queries under way -/

/-- What a report of an action says about the presence of a record. -/
def Action.sign : Action → Int
  | .insert => 1
  | .delete => -1
  | .update | .replace | .select => 0

namespace Job

/-- A query that has affected the records of some names so far. -/
inductive Underway : Job → List String → Prop
  | selecting {α : Type} {action : Action} {c : Collection} {reading : Program α}
      {f : α → Program (List String)} (hread : reading.ReadOnly)
      (hf : ∀ a, Underway ⟨action, c, f a⟩ []) : Underway ⟨action, c, reading.bind f⟩ []
  | inserting (c : Collection) (names : List String) (records : Records c.kind) :
      Underway ⟨.insert, c, c.writeAll .ifAbsent names records⟩ names
  | updating (c : Collection) (names : List String) (records : Records c.kind) :
      Underway ⟨.update, c, c.writeAll .ifPresent names records⟩ names
  | deleting (c : Collection) (names rest : List String) :
      Underway ⟨.delete, c, c.removeAll names rest⟩ names

/-- Before its first command a query has affected nothing. -/
theorem underway_of_mutation {p : SubjectPlan} {origin : Origin} {assignments : List Assignment}
    {pageSize : Nat} {action : Action} {program : Program (List String)}
    (haction : action ≠ .replace)
    (h : p.mutation origin assignments pageSize action = .ok program) :
    Underway ⟨action, p.collection, program⟩ [] := by
  cases action with
  | select => cases h
  | replace => exact absurd rfl haction
  | insert =>
      obtain ⟨records, -, rfl⟩ := SubjectPlan.put_eq_ok h
      exact .inserting p.collection [] records
  | update =>
      obtain ⟨a, payload, -, -, -, rfl⟩ := SubjectPlan.update_eq_ok h
      exact .selecting (p.select_readOnly pageSize) fun found => .updating p.collection [] _
  | delete =>
      cases h
      exact .selecting (p.select_readOnly pageSize) fun found =>
        .deleting p.collection [] found.names

variable {job : Job} {names : List String} {w : Program.Waiting (List String)}
  {st after : Store} {kind : Structure} {key : Key}

/-- What the names affected so far will count for in the report. -/
def owed (job : Job) (names : List String) (kind : Structure) (key : Key) : Int :=
  job.action.sign * job.collection.count names kind key

/-- A query that comes to its end reports what it has affected. -/
theorem Underway.finish (h : job.Underway names) {reported : List String}
    (hstep : job.program.step? = .inl reported) : reported = names := by
  induction h with
  | selecting hread hf ih =>
      rw [Program.step?_bind] at hstep
      split at hstep
      next a _ => exact ih a hstep
      next => cases hstep
  | inserting c names records =>
      cases records with
      | nil => exact (Sum.inl.inj hstep).symm
      | cons r records => cases hstep
  | updating c names records =>
      cases records with
      | nil => exact (Sum.inl.inj hstep).symm
      | cons r records => cases hstep
  | deleting c names rest =>
      cases rest with
      | nil => exact (Sum.inl.inj hstep).symm
      | cons name rest => cases hstep

/-- A name that a command affects counts once more, as the presence that it has changed. -/
theorem owed_affected {through : Bool} {name : String}
    (h : after.presence kind key = st.presence kind key +
      job.action.sign * if through = true ∧ job.collection.Means name kind key then 1 else 0) :
    job.owed (if through then names ++ [name] else names) kind key =
      job.owed names kind key + (after.presence kind key - st.presence kind key) := by
  cases through with
  | false =>
      have hsame : after.presence kind key = st.presence kind key := by simpa using h
      rw [hsame, sub_self, add_zero]
      rfl
  | true =>
      have hcount : job.collection.count (names ++ [name]) kind key = _ :=
        Collection.count_concat names name
      rw [h, owed, owed, if_pos rfl, hcount]
      simp [mul_add]

/-- What a query waits for that has affected the records of some names so far. -/
inductive Awaits : Action → Collection → List String → Program.Waiting (List String) → Prop
  /-- An answer to a command that only reads. -/
  | reading {action : Action} {c : Collection} {w : Program.Waiting (List String)}
      (hread : w.command.isWrite = false)
      (hnext : ∀ answer, Underway ⟨action, c, w.next answer⟩ []) : Awaits action c [] w
  /-- Whether a record was missing. -/
  | creating (c : Collection) (names : List String) (r : String × c.kind.Payload)
      (records : Records c.kind) :
      Awaits .insert c names ⟨.write c r.1 r.2 .ifAbsent, fun through =>
        c.writeAll .ifAbsent (if through then names ++ [r.1] else names) records⟩
  /-- Whether a record was there. -/
  | overwriting (c : Collection) (names : List String) (r : String × c.kind.Payload)
      (records : Records c.kind) :
      Awaits .update c names ⟨.write c r.1 r.2 .ifPresent, fun through =>
        c.writeAll .ifPresent (if through then names ++ [r.1] else names) records⟩
  /-- Whether a record was there that is removed. -/
  | removing (c : Collection) (names : List String) (name : String) (rest : List String) :
      Awaits .delete c names ⟨.remove c name, fun existed =>
        c.removeAll (if existed then names ++ [name] else names) rest⟩

theorem Underway.awaits (h : job.Underway names) (hstep : job.program.step? = .inr w) :
    Awaits job.action job.collection names w := by
  induction h with
  | selecting hread hf ih =>
      rw [Program.step?_bind] at hstep
      split at hstep
      next a _ => exact ih a hstep
      next w' hw' =>
        obtain rfl := Sum.inr.inj hstep
        obtain ⟨hwrite, hrest⟩ := hread.of_step? hw'
        exact .reading hwrite fun answer => .selecting (hrest answer) hf
  | inserting c names records =>
      cases records with
      | nil => cases hstep
      | cons r records =>
          obtain rfl := Sum.inr.inj hstep
          exact .creating c names r records
  | updating c names records =>
      cases records with
      | nil => cases hstep
      | cons r records =>
          obtain rfl := Sum.inr.inj hstep
          exact .overwriting c names r records
  | deleting c names rest =>
      cases rest with
      | nil => cases hstep
      | cons name rest =>
          obtain rfl := Sum.inr.inj hstep
          exact .removing c names name rest

/-- **One command of a query** changes what the query owes by as much as it changes the
presence of a record. -/
theorem Underway.send (h : job.Underway names) (hstep : job.program.step? = .inr w)
    {answer : w.command.Answer} (hperform : st.perform w.command = (.ok answer, after)) :
    ∃ names', Underway { job with program := w.next answer } names' ∧
      ∀ kind key, job.owed names' kind key =
        job.owed names kind key + (after.presence kind key - st.presence kind key) := by
  obtain ⟨action, c, program⟩ := job
  cases h.awaits hstep with
  | reading hread hnext =>
      refine ⟨[], hnext answer, fun kind key => ?_⟩
      have hsame := Store.presence_of_not_isWrite hread hperform kind key
      rw [hsame, sub_self, add_zero]
  | creating _ _ r records =>
      refine ⟨_, .inserting c _ records, fun kind key => owed_affected ?_⟩
      simp only [Collection.create_presence hperform, Action.sign, one_mul]
  | overwriting _ _ r records =>
      refine ⟨_, .updating c _ records, fun kind key => owed_affected ?_⟩
      simp only [Collection.overwrite_presence hperform, Action.sign, zero_mul, add_zero]
  | removing _ _ name rest =>
      refine ⟨_, .deleting c _ rest, fun kind key => owed_affected ?_⟩
      simp only [Collection.remove_presence hperform, Action.sign, neg_one_mul, sub_eq_add_neg]

/-- A query that fails has affected nothing, and its last command has not either. -/
theorem Underway.fail (h : job.Underway names) (hstep : job.program.step? = .inr w)
    {e : StoreError} (hperform : st.perform w.command = (.error e, after)) (kind : Structure)
    (key : Key) :
    job.owed names kind key = 0 ∧ after.presence kind key = st.presence kind key := by
  obtain ⟨action, c, program⟩ := job
  cases h.awaits hstep with
  | reading hread hnext =>
      exact ⟨mul_zero _, Store.presence_of_not_isWrite hread hperform kind key⟩
  | creating _ _ r records =>
      obtain ⟨rfl, hnone⟩ := Collection.count_of_write_error hperform names kind key
      exact ⟨mul_eq_zero_of_right _ hnone, rfl⟩
  | overwriting _ _ r records =>
      obtain ⟨rfl, hnone⟩ := Collection.count_of_write_error hperform names kind key
      exact ⟨mul_eq_zero_of_right _ hnone, rfl⟩
  | removing _ _ name rest =>
      obtain ⟨rfl, hnone⟩ := Collection.count_of_remove_error hperform names kind key
      exact ⟨mul_eq_zero_of_right _ hnone, rfl⟩

end Job

namespace Client

variable {st after : Store} {client client' : Client} {kind : Structure} {key : Key} {n : Int}

/-- By how much the reports of a client raise the presence of a record, if they are right. -/
def reportedSum (client : Client) (kind : Structure) (key : Key) : Int :=
  (client.reports.map fun report =>
    report.action.sign * report.collection.count report.names kind key).sum

/-- Only insertions and deletions raise or lower the presence of a record. -/
theorem reportedSum_eq (client : Client) (kind : Structure) (key : Key) :
    client.reportedSum kind key =
      client.reported .insert kind key - client.reported .delete kind key := by
  obtain ⟨job, reports⟩ := client
  simp only [reportedSum, reported]
  induction reports with
  | nil => rfl
  | cons report reports ih =>
      rw [List.map_cons, List.sum_cons, ih]
      obtain ⟨action, c, names⟩ := report
      cases action <;> simp [Action.sign] <;> omega

/-- By how much a client has raised the presence of a record: by what it has reported, and by
what its query under way will report if it comes to its end. -/
inductive Raised (kind : Structure) (key : Key) : Client → Int → Prop
  | idle (reports : List Affected) :
      Raised kind key ⟨none, reports⟩ (reportedSum ⟨none, reports⟩ kind key)
  | busy (reports : List Affected) {job : Job} {names : List String} (h : job.Underway names) :
      Raised kind key ⟨some job, reports⟩
        (reportedSum ⟨none, reports⟩ kind key + job.owed names kind key)

theorem Raised.eq_of_idle {reports : List Affected} (h : Raised kind key ⟨none, reports⟩ n) :
    n = reportedSum ⟨none, reports⟩ kind key := by
  cases h
  rfl

theorem Raised.underway {reports : List Affected} {job : Job}
    (h : Raised kind key ⟨some job, reports⟩ n) : ∃ names, job.Underway names := by
  cases h with
  | busy _ hunderway => exact ⟨_, hunderway⟩

/-- **One turn of a client** raises the presence of a record by as much as the client has
raised it more. -/
theorem Turn.raised (h : Turn st client client' after) (hbefore : client.Raised kind key n) :
    client'.Raised kind key (n + (after.presence kind key - st.presence kind key)) := by
  cases h with
  | start reports haction hprogram =>
      cases hbefore
      have hunderway := Job.underway_of_mutation haction hprogram
      have hraised : Raised kind key ⟨some ⟨_, _, _⟩, reports⟩ _ := .busy reports hunderway
      convert hraised using 1
      simp [Job.owed, Collection.count_nil]
  | @send reports job w stale answer _ hstep hperform =>
      cases hbefore with
      | busy _ hunderway =>
          rw [Store.performRetrying_eq] at hperform
          obtain ⟨names', hunderway', howed⟩ := hunderway.send hstep hperform
          have hraised : Raised kind key ⟨some _, reports⟩ _ := .busy reports hunderway'
          convert hraised using 1
          have hmore := howed kind key
          simp only [Job.owed] at hmore ⊢
          omega
  | @fail reports job w stale e _ hstep hperform =>
      cases hbefore with
      | busy _ hunderway =>
          rw [Store.performRetrying_eq] at hperform
          obtain ⟨howed, hsame⟩ := hunderway.fail hstep hperform kind key
          have hraised : Raised kind key ⟨none, reports⟩ _ := .idle reports
          convert hraised using 1
          omega
  | @finish reports job names hstep =>
      cases hbefore with
      | busy _ hunderway =>
          obtain rfl := hunderway.finish hstep
          have hraised : Raised kind key
            ⟨none, reports ++ [⟨job.action, job.collection, names⟩]⟩ _ := .idle _
          convert hraised using 1
          simp [reportedSum, Job.owed]

end Client

/-! ### Runs -/

/-- A store and the clients that share it. -/
structure Crowd (ι : Type) where
  store : Store
  clients : ι → Client

namespace Crowd

variable {ι : Type}

/-- Nobody has done anything yet. -/
def start (ι : Type) (store : Store) : Crowd ι := ⟨store, fun _ => ⟨none, []⟩⟩

/-- Nobody is doing anything. -/
def Idle (w : Crowd ι) : Prop := ∀ i, (w.clients i).job = none

section Turns

variable [DecidableEq ι]

/-- A client takes its turn. -/
def Step (i : ι) (w w' : Crowd ι) : Prop :=
  ∃ client after, (w.clients i).Turn w.store client after ∧
    w' = ⟨after, Function.update w.clients i client⟩

/-- Clients take turns in any order. -/
def Run (w w' : Crowd ι) : Prop := Relation.ReflTransGen (fun w w' => ∃ i, Step i w w') w w'

end Turns

/-! ### Books -/

variable [Fintype ι] {st : Store} {w w' : Crowd ι} {kind : Structure} {key : Key}

/-- How often reports of an action are about a key of a structure. -/
def reported (w : Crowd ι) (action : Action) (kind : Structure) (key : Key) : Int :=
  ∑ i, (w.clients i).reported action kind key

/-- The books of a run: what all clients together have raised the presence of a record by
is what it has changed by. -/
def Accounted (st : Store) (w : Crowd ι) (kind : Structure) (key : Key) : Prop :=
  ∃ raised : ι → Int, (∀ i, (w.clients i).Raised kind key (raised i)) ∧
    ∑ i, raised i = w.store.presence kind key - st.presence kind key

theorem accounted_start (st : Store) (kind : Structure) (key : Key) :
    Accounted st (start ι st) kind key :=
  ⟨fun _ => 0, fun _ => .idle [], by simp [start]⟩

/-- With nobody at work, the reports alone make up the books. -/
theorem Accounted.balance (h : Accounted st w kind key) (hidle : w.Idle) :
    w.reported .insert kind key - w.reported .delete kind key =
      w.store.presence kind key - st.presence kind key := by
  obtain ⟨raised, hraised, hsum⟩ := h
  have hreports : ∀ i, raised i =
      (w.clients i).reported .insert kind key - (w.clients i).reported .delete kind key := by
    intro i
    rw [← Client.reportedSum_eq]
    have hnone := hidle i
    have hclient := hraised i
    rcases hclients : w.clients i with ⟨job, reports⟩
    rw [hclients] at hnone hclient
    obtain rfl : job = none := hnone
    exact hclient.eq_of_idle
  rw [← hsum, reported, reported, ← Finset.sum_sub_distrib]
  exact (Finset.sum_congr rfl fun i _ => hreports i).symm

variable [DecidableEq ι]

/-- Every turn is booked. -/
theorem Accounted.step {i : ι} (h : Accounted st w kind key) (hstep : Step i w w') :
    Accounted st w' kind key := by
  obtain ⟨client, after, hturn, rfl⟩ := hstep
  obtain ⟨raised, hraised, hsum⟩ := h
  have hclient := hturn.raised (hraised i)
  refine ⟨Function.update raised i (raised i +
    (after.presence kind key - w.store.presence kind key)), fun j => ?_, ?_⟩
  · by_cases hj : j = i
    · subst hj
      simpa using hclient
    · simpa [hj] using hraised j
  · have htotal := sum_update_add raised i
      (raised i + (after.presence kind key - w.store.presence kind key))
    dsimp only
    omega

/-- The books are right at every moment of a run. -/
theorem Run.accounted (hrun : Run (start ι st) w) (kind : Structure) (key : Key) :
    Accounted st w kind key := by
  induction hrun with
  | refl => exact accounted_start st kind key
  | tail _ hstep ih =>
      obtain ⟨i, hstep⟩ := hstep
      exact ih.step hstep

/-- A turn of a client that updates changes the presence of no record. -/
theorem Accounted.presence_of_update {i : ι} {job : Job} (h : Accounted st w kind key)
    (hjob : (w.clients i).job = some job) (hupdate : job.action = .update)
    (hstep : Step i w w') : w'.store.presence kind key = w.store.presence kind key := by
  obtain ⟨client, after, hturn, rfl⟩ := hstep
  obtain ⟨raised, hraised, -⟩ := h
  have hclient := hraised i
  rcases hclients : w.clients i with ⟨job', reports⟩
  rw [hclients] at hjob hturn hclient
  obtain rfl : job' = some job := hjob
  obtain ⟨names, hunderway⟩ := hclient.underway
  cases hturn with
  | finish => rfl
  | fail _ stale hwaits hperform =>
      rw [Store.performRetrying_eq] at hperform
      exact (hunderway.fail hwaits hperform kind key).2
  | send _ stale hwaits hperform =>
      rw [Store.performRetrying_eq] at hperform
      obtain ⟨names', -, howed⟩ := hunderway.send hwaits hperform
      have hnothing := howed kind key
      rw [Job.owed, Job.owed, hupdate] at hnothing
      simp only [Action.sign, zero_mul, zero_add] at hnothing
      exact sub_eq_zero.mp hnothing.symm

/-- **No effect is lost or counted twice.**  Any number of clients insert, update and delete,
command by command and in any order, over any store.  When nobody is at work any more, the
reports of a record's insertion less those of its deletion are what its presence has changed
by.  So without deletions only one insertion reports a record, and without insertions only one
deletion; and no turn of an update, at whatever moment, brings a record back. -/
theorem run_conserves (hrun : Run (start ι st) w) :
    (w.Idle → ∀ kind key,
      w.reported .insert kind key - w.reported .delete kind key =
        w.store.presence kind key - st.presence kind key ∧
      (w.reported .delete kind key = 0 → w.reported .insert kind key ≤ 1) ∧
      (w.reported .insert kind key = 0 → w.reported .delete kind key ≤ 1)) ∧
    ∀ i w', Step i w w' → ∀ job, (w.clients i).job = some job → job.action = .update →
      ∀ kind key, w'.store.presence kind key = w.store.presence kind key := by
  refine ⟨fun hidle kind key => ?_, fun i w' hstep job hjob hupdate kind key =>
    (hrun.accounted kind key).presence_of_update hjob hupdate hstep⟩
  have hbalance := (hrun.accounted kind key).balance hidle
  have hbefore := st.presence_bounds kind key
  have hafter := w.store.presence_bounds kind key
  refine ⟨hbalance, fun hdeleted => ?_, fun hinserted => ?_⟩
  · omega
  · omega

/-- Two clients over a store. -/
def pair (st : Store) (first second : Client) : Crowd Bool :=
  ⟨st, fun i => if i then first else second⟩

theorem step_first {st after : Store} {first first' : Client} (h : first.Turn st first' after)
    (second : Client) : Step true (pair st first second) (pair after first' second) := by
  refine ⟨first', after, h, ?_⟩
  rw [pair, pair, Crowd.mk.injEq]
  exact ⟨rfl, funext fun i => by cases i <;> rfl⟩

theorem step_second {st after : Store} {second second' : Client}
    (h : second.Turn st second' after) (first : Client) :
    Step false (pair st first second) (pair after first second') := by
  refine ⟨second', after, h, ?_⟩
  rw [pair, pair, Crowd.mk.injEq]
  exact ⟨rfl, funext fun i => by cases i <;> rfl⟩

/-- Notes in a hash of their name. -/
def board : SubjectPlan := ⟨"board", .ofName "board", .hash, [], []⟩

/-- A query that inserts one note. -/
def posting (value : Value) : Job :=
  ⟨.insert, board.collection,
    board.collection.writeAll .ifAbsent [] [(board.entity.recordName "a", value)]⟩

/-- The store with the note of the first client. -/
def posted : Store :=
  (Store.perform (.write board.collection (board.entity.recordName "a") (.int 1) .ifAbsent)
    .empty).2

/-- What an inserting client reports. -/
def report (names : List String) : Affected := ⟨.insert, board.collection, names⟩

/-- Two clients have posted one note, the second of them too late. -/
def bothPosted : Crowd Bool :=
  pair posted ⟨none, [report [board.entity.recordName "a"]]⟩ ⟨none, [report []]⟩

/-- Both see no note at first, and both decide to write one. -/
theorem run_bothPosted : Run (start Bool .empty) bothPosted := by
  have hpost : ∀ value, board.mutation ⟨"kv", "q"⟩ [⟨"a", value⟩] 1 .insert =
      .ok (posting value).program := fun value => rfl
  have hfirst : Store.empty.performRetrying (fun _ => [])
      (.write board.collection (board.entity.recordName "a") (.int 1) .ifAbsent) =
        (.ok true, posted) := by cbv
  have hsecond : posted.performRetrying (fun _ => [none])
      (.write board.collection (board.entity.recordName "a") (.int 2) .ifAbsent) =
        (.ok false, posted) := by cbv
  have hinsert : Action.insert ≠ .replace := by decide
  have hbegun : Run (start Bool .empty)
      (pair .empty ⟨some (posting (.int 1)), []⟩ ⟨some (posting (.int 2)), []⟩) := by
    have hidle : start Bool .empty = pair .empty ⟨none, []⟩ ⟨none, []⟩ := by
      rw [start, pair]
      congr 1
      funext i
      cases i <;> rfl
    rw [hidle]
    refine .tail (.single ⟨true, step_first (.start [] hinsert (hpost (.int 1))) _⟩)
      ⟨false, step_second (.start [] hinsert (hpost (.int 2))) _⟩
  have hsent := hbegun.tail ⟨true, step_first (.send [] (fun _ => []) rfl hfirst) _⟩
  have hlate := hsent.tail ⟨false, step_second (.send [] (fun _ => [none]) rfl hsecond) _⟩
  have hdone := hlate.tail ⟨true, step_first (.finish [] rfl) _⟩
  exact hdone.tail ⟨false, step_second (.finish [] rfl) _⟩

theorem run_conserves_bothPosted :
    Run (start Bool .empty) bothPosted ∧ bothPosted.Idle ∧
      bothPosted.reported .insert .hash (Utf8.bytes "board\x00board:a") = 1 := by
  have hidle : bothPosted.Idle := by
    intro i
    cases i <;> rfl
  have hconserved := ((run_conserves run_bothPosted).1 hidle .hash
    (Utf8.bytes "board\x00board:a")).1
  have hdeleted : bothPosted.reported .delete .hash (Utf8.bytes "board\x00board:a") = 0 := by
    simp [reported, bothPosted, pair, Client.reported, report]
  have hthere : posted.presence .hash (Utf8.bytes "board\x00board:a") = 1 := by cbv
  have hmissing : Store.empty.presence .hash (Utf8.bytes "board\x00board:a") = 0 := by cbv
  refine ⟨run_bothPosted, hidle, ?_⟩
  rw [hdeleted, hmissing, sub_zero, sub_zero] at hconserved
  exact hconserved.trans hthere

end Crowd

end KeyedRelations
