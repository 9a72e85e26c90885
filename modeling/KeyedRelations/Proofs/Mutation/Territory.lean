import KeyedRelations.Proofs.Entity
import KeyedRelations.Proofs.Mutation
import KeyedRelations.Proofs.Scan.Outcome
import KeyedRelations.Proofs.Store.Retry

/-!
# What the queries on a subject can touch

Every command of a subject's query is about a record behind the entity's prefix, in the
subject's collection.  The same is true of the entries that its scans examine, because a
pattern starts with the escaped prefix.  So a subject has a **territory** of keys: over
stores that agree there its query comes to the same and they agree there afterwards
(`SubjectPlan.Stays.agree`), and outside nothing is different (`SubjectPlan.Stays.outside`).
This does not depend on what the entries are, and where the collection has no keys the
territory is empty.
-/

namespace KeyedRelations

/-! ### Territories -/

/-- A set of entries, by the keys of each structure. -/
abbrev Territory : Type := Structure → Key → Prop

/-- Trees that have the same entries in a territory. -/
def Territory.Agree (T : Territory) (t t' : Trees) : Prop :=
  ∀ kind key, T kind key → (t.tree kind).get? key = (t'.tree kind).get? key

/-- Where the records of an entity live in a structure: the keys of its collection that start
with its prefix. -/
def Entity.territory (e : Entity) (s : Structure) : Territory := fun kind key =>
  kind = s ∧ ∃ base, (Collection.mk s e.containerKey).base = .ok base ∧
    base ++ Utf8.bytes e.namePrefix <+: key

variable {T : Territory} {t t' : Trees}

/-- Trees go on to agree if a tree is replaced in both by trees that agree. -/
theorem Territory.Agree.update (h : T.Agree t t') {s : Structure} {tree tree' : Tree s}
    (htree : ∀ key, T s key → tree.get? key = tree'.get? key) :
    T.Agree (t.update s tree) (t'.update s tree') := by
  intro kind key hkey
  by_cases hkind : kind = s
  · subst hkind
    rw [Trees.tree_update_self, Trees.tree_update_self]
    exact htree key hkey
  · rw [Trees.tree_update_of_ne t tree hkind, Trees.tree_update_of_ne t' tree' hkind]
    exact h kind key hkey

/-! ### Commands about one record -/

/-- The record that a command is about, unless it is a round of a scan. -/
def Command.record? : Command → Option (Collection × String)
  | .scan .. => none
  | .read c name | .write c name .. | .remove c name => some (c, name)

theorem Command.isScan_of_record? {cmd : Command} {r : Collection × String}
    (h : cmd.record? = some r) : cmd.isScan = false := by
  cases cmd with
  | scan => cases h
  | read | write | remove => rfl

namespace Store

variable {cmd : Command} {c : Collection} {name : String}

/-- A command about a record looks at what stands under its key and replaces it. -/
theorem perform_record {key : Key} (hrecord : cmd.record? = some (c, name))
    (hkey : c.keyOf name = .ok key) :
    ∃ act : Option c.kind.Form → Except StoreError cmd.Answer × Option c.kind.Form,
      ∀ t, (ofTrees t).perform cmd =
        ((act ((t.tree c.kind).get? key)).1, ofTrees (t.update c.kind
          ((t.tree c.kind).replace key (act ((t.tree c.kind).get? key)).2))) := by
  cases cmd with
  | scan => cases hrecord
  | read c name =>
      obtain ⟨rfl, rfl⟩ := Prod.mk.inj (Option.some.inj hrecord)
      refine ⟨fun content => (content.elim (.ok none) fun form =>
        (c.kind.load name form).map some, content), fun t => ?_⟩
      dsimp only
      rw [Tree.replace_self, Trees.update_tree_self, perform, read, hkey]
      cases hcontent : (t.tree c.kind).get? key <;> simp [ofTrees, hcontent]
  | write c name payload mode =>
      obtain ⟨rfl, rfl⟩ := Prod.mk.inj (Option.some.inj hrecord)
      refine ⟨fun content => (.ok (mode.decide (c.kind.store payload) content).1,
        (mode.decide (c.kind.store payload) content).2), fun t => ?_⟩
      rw [perform, ← writeRetrying_eq c name payload mode fun _ => [], writeRetrying, hkey]
      rfl
  | remove c name =>
      obtain ⟨rfl, rfl⟩ := Prod.mk.inj (Option.some.inj hrecord)
      refine ⟨fun content => (.ok content.isSome, none), fun t => ?_⟩
      rw [perform, remove, hkey]
      rfl

/-- Without a key it fails, whatever the trees are. -/
theorem perform_record_error {e : StoreError} (hrecord : cmd.record? = some (c, name))
    (hkey : c.keyOf name = .error e) (t : Trees) :
    (ofTrees t).perform cmd = (.error e, ofTrees t) := by
  cases cmd with
  | scan => cases hrecord
  | read c name | write c name payload mode | remove c name =>
      obtain ⟨rfl, rfl⟩ := Prod.mk.inj (Option.some.inj hrecord)
      simp only [perform, read, write, remove, hkey]

/-- A command about a record of the territory does the same to stores that agree there. -/
theorem perform_agree (hrecord : cmd.record? = some (c, name))
    (hT : ∀ key, c.keyOf name = .ok key → T c.kind key) (h : T.Agree t t') :
    ((ofTrees t).perform cmd).1 = ((ofTrees t').perform cmd).1 ∧
      T.Agree ((ofTrees t).perform cmd).2.trees ((ofTrees t').perform cmd).2.trees := by
  cases hkey : c.keyOf name with
  | error e =>
      rw [perform_record_error hrecord hkey, perform_record_error hrecord hkey]
      exact ⟨rfl, h⟩
  | ok key =>
      obtain ⟨act, hact⟩ := perform_record hrecord hkey
      have hsame := h c.kind key (hT key hkey)
      rw [hact t, hact t', hsame]
      refine ⟨rfl, h.update fun other hother => ?_⟩
      by_cases heq : other = key
      · rw [heq, Tree.get?_replace_self, Tree.get?_replace_self]
      · rw [Tree.get?_replace_of_ne _ _ heq, Tree.get?_replace_of_ne _ _ heq]
        exact h c.kind other hother

/-- It changes nothing outside. -/
theorem perform_outside (hrecord : cmd.record? = some (c, name))
    (hT : ∀ key, c.keyOf name = .ok key → T c.kind key) {kind : Structure} {key : Key}
    (hout : ¬ T kind key) :
    (((ofTrees t).perform cmd).2.trees.tree kind).get? key = (t.tree kind).get? key := by
  cases hkey : c.keyOf name with
  | error e =>
      rw [perform_record_error hrecord hkey]
      rfl
  | ok own =>
      obtain ⟨act, hact⟩ := perform_record hrecord hkey
      rw [hact t, ofTrees]
      dsimp only
      by_cases hkind : kind = c.kind
      · subst hkind
        have hne : key ≠ own := by
          rintro rfl
          exact hout (hT key hkey)
        rw [Trees.tree_update_self, Tree.get?_replace_of_ne _ _ hne]
      · rw [Trees.tree_update_of_ne t _ hkind]

end Store

/-! ### Scans -/

/-- What lies ahead in a range depends on the entries of the range only. -/
theorem Tree.ahead_congr {s : Structure} {tree tree' : Tree s} (bound : Store.Bound) {range : Key}
    (h : ∀ key, range <+: key → tree.get? key = tree'.get? key) :
    tree.ahead bound range = tree'.ahead bound range := by
  have hsorted : ∀ tree : Tree s, (tree.ahead bound range).Pairwise (·.1 < ·.1) :=
    fun tree => tree.ascending.filter _
  refine SortedMap.eq_of_ascending (hsorted tree) (hsorted tree') fun e => ?_
  rw [ahead, ahead, List.mem_filter, List.mem_filter]
  refine and_congr_left fun hkeep => ?_
  have hrange : range <+: e.1 :=
    List.isPrefixOf_iff_prefix.mp ((Bool.and_eq_true _ _).mp hkeep).2
  rw [← SortedMap.get?_eq_some_iff, ← SortedMap.get?_eq_some_iff, h e.1 hrange]

/-- A scan whose range lies in the territory shows the same of stores that agree there. -/
theorem ScanRequest.whole_agree {r : ScanRequest}
    (hT : ∀ base key, r.collection.base = .ok base → Store.rangeOf base r.pattern <+: key →
      T r.collection.kind key) (h : T.Agree t t') : r.whole t = r.whole t' := by
  cases hbase : r.collection.base with
  | error e => rw [whole_of_base_error hbase, whole_of_base_error hbase]
  | ok base =>
      have hahead := Tree.ahead_congr (.atOrAfter (Store.rangeOf base r.pattern))
        fun key hkey => h r.collection.kind key (hT base key hbase hkey)
      rw [whole_of_base hbase, whole_of_base hbase, Collection.rest, Collection.rest, hahead]

namespace SubjectPlan

/-! ### Programs of a subject -/

variable {α β : Type} {p : SubjectPlan} {Q : α → Prop} {R : β → Prop}

/-- Where the subject's records live. -/
abbrev territory (p : SubjectPlan) : Territory := p.entity.territory p.kind

/-- A program that keeps to names behind the entity's prefix, if scans show it only such names,
and whose results have a property. -/
inductive Stays (p : SubjectPlan) (Q : α → Prop) : Program α → Prop
  | done {a : α} (h : Q a) : Stays p Q (.done a)
  | command {cmd : Command} {next : cmd.Answer → Program α} {name : String}
      (hrecord : cmd.record? = some (p.collection, name)) (hname : p.Names name)
      (hnext : ∀ answer, Stays p Q (next answer)) : Stays p Q (.command cmd next)
  | drain {request : ScanRequest} {next : List request.Found → Program α} {keys : String}
      (hcollection : request.collection = p.collection)
      (hpattern : request.pattern = p.pattern keys)
      (hnext : ∀ items, (∀ x ∈ items, p.Names x.1) → Stays p Q (next items)) :
      Stays p Q (.drain request .start [] next)

namespace Stays

theorem bind {program : Program α} {f : α → Program β} (h : Stays p Q program)
    (hf : ∀ a, Q a → Stays p R (f a)) : Stays p R (program.bind f) := by
  induction h with
  | done h => exact hf _ h
  | command hrecord hname _ ih => exact .command hrecord hname ih
  | drain hcollection hpattern _ ih => exact .drain hcollection hpattern ih

/-- A scan for names behind the prefix shows such names. -/
theorem names_of_whole {request : ScanRequest} {keys : String} {items : List request.Found}
    (hpattern : request.pattern = p.pattern keys)
    (h : ∀ x ∈ items, Glob.accepts request.pattern x.1 = true) : ∀ x ∈ items, p.Names x.1 := by
  intro x hx
  have haccepts := h x hx
  rw [hpattern] at haccepts
  exact names_of_accepts haccepts

theorem plain {program : Program α} (h : Stays p Q program) : program.Plain := by
  induction h with
  | done h => exact .done _
  | command hrecord _ _ ih => exact .command (Command.isScan_of_record? hrecord) ih
  | drain hcollection hpattern _ ih =>
      exact .drain fun items hitems => ih items (names_of_whole hpattern hitems)

/-- Names behind the prefix have keys in the territory. -/
theorem territory_of_name {name : String} (hname : p.Names name) (key : Key)
    (hkey : p.collection.keyOf name = .ok key) : p.territory p.collection.kind key := by
  obtain ⟨natural, rfl⟩ := hname
  cases hbase : p.collection.base with
  | error e =>
      rw [Collection.keyOf_of_base_error hbase] at hkey
      cases hkey
  | ok base =>
      rw [Collection.keyOf_of_base hbase, Entity.recordName, Utf8.bytes_append] at hkey
      refine ⟨rfl, base, hbase, ?_⟩
      rw [← Except.ok.inj hkey, ← List.append_assoc]
      exact List.prefix_append _ _

/-- So has everything in the range of a pattern behind the escaped prefix. -/
theorem territory_of_range {keys : String} (base key : Key)
    (hbase : p.collection.base = .ok base)
    (hrange : Store.rangeOf base (p.pattern keys) <+: key) : p.territory p.kind key := by
  refine ⟨rfl, base, hbase, List.IsPrefix.trans ?_ hrange⟩
  rw [Store.rangeOf, pattern, Glob.literalPrefix_escape_append, Utf8.bytes_append,
    ← List.append_assoc]
  exact List.prefix_append _ _

/-- **A program of a subject** comes to the same over stores that agree in its territory, and
they agree there afterwards. -/
theorem agree {program : Program α} (h : Stays p Q program) (hagree : p.territory.Agree t t') :
    (program.outcome t).1 = (program.outcome t').1 ∧
      p.territory.Agree (program.outcome t).2 (program.outcome t').2 := by
  induction h generalizing t t' with
  | done h => exact ⟨rfl, hagree⟩
  | @command cmd next name hrecord hname _ ih =>
      obtain ⟨hanswer, hafter⟩ :=
        Store.perform_agree hrecord (territory_of_name hname) hagree
      rw [Program.outcome, Program.outcome]
      rcases hperform : (Store.ofTrees t).perform cmd with ⟨answer, st⟩
      rcases hperform' : (Store.ofTrees t').perform cmd with ⟨answer', st'⟩
      rw [hperform, hperform'] at hanswer hafter
      obtain rfl : answer = answer' := hanswer
      cases answer with
      | error e => exact ⟨rfl, hafter⟩
      | ok answer => exact ih answer hafter
  | @drain request next keys hcollection hpattern _ ih =>
      have hwhole : request.whole t = request.whole t' := by
        refine ScanRequest.whole_agree (fun base key hbase hrange => ?_) hagree
        rw [hcollection] at hbase ⊢
        rw [hpattern] at hrange
        exact territory_of_range base key hbase hrange
      rw [Program.outcome, Program.outcome, hwhole]
      cases hitems : request.whole t' with
      | error e => exact ⟨rfl, hagree⟩
      | ok items =>
          have hnames := names_of_whole hpattern fun x => request.accepts_of_whole hitems
          exact ih items hnames hagree

/-- **Outside the territory** it changes nothing. -/
theorem outside {program : Program α} (h : Stays p Q program) {kind : Structure} {key : Key}
    (hout : ¬ p.territory kind key) (t : Trees) :
    ((program.outcome t).2.tree kind).get? key = (t.tree kind).get? key := by
  induction h generalizing t with
  | done h => rfl
  | @command cmd next name hrecord hname _ ih =>
      have hstep := Store.perform_outside (t := t) hrecord (territory_of_name hname) hout
      rw [Program.outcome]
      rcases hperform : (Store.ofTrees t).perform cmd with ⟨⟨_⟩ | ⟨answer⟩, st⟩
      · rwa [hperform] at hstep
      · rw [hperform] at hstep
        exact (ih answer st.trees).trans hstep
  | @drain request next keys hcollection hpattern _ ih =>
      rw [Program.outcome]
      cases hitems : request.whole t with
      | error e => rfl
      | ok items =>
          exact ih items (names_of_whole hpattern fun x => request.accepts_of_whole hitems) t

end Stays

/-! ### The queries on a subject -/

/-- Records behind the entity's prefix. -/
def Named (p : SubjectPlan) (found : Records p.kind) : Prop := ∀ r ∈ found, p.Names r.1

theorem Named.join {found more : Records p.kind} (h : p.Named found) (h' : p.Named more) :
    p.Named (found.join more) := by
  intro r hr
  rcases Records.mem_join.mp hr with hr | ⟨hr, -⟩
  · exact h r hr
  · exact h' r hr

theorem Named.single {name : String} (hname : p.Names name) (payload : p.kind.Payload) :
    p.Named [(name, payload)] := by
  intro r hr
  rw [List.mem_singleton.mp hr]
  exact hname

theorem readAll_stays {found : Records p.kind} (hfound : p.Named found) {names : List String}
    (hnames : ∀ name ∈ names, p.Names name) :
    p.Stays p.Named (p.collection.readAll found names) := by
  induction names generalizing found with
  | nil => exact .done hfound
  | cons name names ih =>
      have hname := hnames name List.mem_cons_self
      refine .command rfl hname fun held => ih ?_ fun name' hname' =>
        hnames name' (List.mem_cons_of_mem _ hname')
      intro r hr
      rcases List.mem_append.mp hr with hr | hr
      · exact hfound r hr
      · obtain ⟨payload, -, rfl⟩ := Option.map_eq_some_iff.mp (Option.mem_toList.mp hr)
        exact hname

theorem scanAll_stays (p : SubjectPlan) (keys : String) (count : Nat) :
    p.Stays p.Named (p.collection.scanAll (p.pattern keys) count) := by
  obtain ⟨name, entity, kind, predicates, columns⟩ := p
  cases kind with
  | list =>
      refine Stays.bind (.drain rfl rfl fun items hitems => .done hitems) fun found hfound =>
        readAll_stays (by simp [Named]) fun name hname => ?_
      obtain ⟨x, hx, rfl⟩ := List.mem_map.mp hname
      exact hfound x hx
  | set | hash | sortedSet => exact .drain rfl rfl fun items hitems => .done hitems

theorem findBy_stays (p : SubjectPlan) (pageSize : Nat) (c : Predicate) :
    p.Stays p.Named (p.findBy pageSize c) := by
  rw [findBy]
  cases c.op with
  | glob => exact p.scanAll_stays _ _
  | eq =>
      refine readAll_stays (by simp [Named]) fun name hname => ?_
      rw [List.mem_singleton.mp hname]
      exact ⟨_, rfl⟩

theorem findByKeys_stays (pageSize : Nat) {found : Records p.kind} (hfound : p.Named found)
    (predicates : List Predicate) :
    p.Stays p.Named (p.findByKeys pageSize found predicates) := by
  induction predicates generalizing found with
  | nil => exact .done hfound
  | cons c rest ih =>
      exact (p.findBy_stays pageSize c).bind fun more hmore => ih (hfound.join hmore)

theorem findByFields_stays {found : Records p.kind} (hfound : p.Named found)
    (fields : List String) : p.Stays p.Named (p.findByFields found fields) := by
  induction fields generalizing found with
  | nil => exact .done hfound
  | cons field rest ih =>
      have hfield : p.Names (p.entity.recordName field) := ⟨field, rfl⟩
      refine .command rfl hfield fun held => ?_
      cases held with
      | none => exact ih hfound
      | some payload =>
          dsimp only
          split
          · exact ih (hfound.join (.single hfield payload))
          · exact ih hfound

/-- **A selection keeps to its subject.** -/
theorem select_stays (p : SubjectPlan) (pageSize : Nat) :
    p.Stays p.Named (p.select pageSize) := by
  rw [select]
  split
  · exact p.scanAll_stays _ _
  · exact (findByKeys_stays pageSize (by simp [Named]) _).bind fun found hfound =>
      findByFields_stays hfound _

theorem writeAll_stays {records : Records p.kind} (h : p.Named records) (mode : WriteMode)
    (written : List String) :
    p.Stays (fun _ => True) (p.collection.writeAll mode written records) := by
  induction records generalizing written with
  | nil => exact .done trivial
  | cons r records ih =>
      have hrest : p.Named records := fun r' hr' => h r' (List.mem_cons_of_mem _ hr')
      exact .command rfl (h r List.mem_cons_self) fun through => ih hrest _

theorem removeAll_stays {names : List String} (h : ∀ name ∈ names, p.Names name)
    (removed : List String) :
    p.Stays (fun _ => True) (p.collection.removeAll removed names) := by
  induction names generalizing removed with
  | nil => exact .done trivial
  | cons name names ih =>
      have hrest : ∀ name' ∈ names, p.Names name' :=
        fun name' hname' => h name' (List.mem_cons_of_mem _ hname')
      exact .command rfl (h name List.mem_cons_self) fun existed => ih hrest _

theorem named_of_assigned {origin : Origin} {assignments : List Assignment}
    {records : Records p.kind} (h : p.assigned origin assignments = .ok records) :
    p.Named records := by
  intro r hr
  have hname : r.1 ∈ records.names := List.mem_map_of_mem hr
  rw [names_of_assigned h] at hname
  obtain ⟨a, -, heq⟩ := List.mem_map.mp hname
  exact ⟨a.column, heq.symm⟩

/-- **A write keeps to its subject.** -/
theorem mutation_stays {origin : Origin} {assignments : List Assignment} {pageSize : Nat}
    {action : Action} {program : Program (List String)}
    (h : p.mutation origin assignments pageSize action = .ok program) :
    p.Stays (fun _ => True) program := by
  cases action with
  | select => cases h
  | insert | replace =>
      obtain ⟨records, hrecords, rfl⟩ := put_eq_ok h
      exact writeAll_stays (named_of_assigned hrecords) _ []
  | update =>
      obtain ⟨a, payload, -, -, -, rfl⟩ := update_eq_ok h
      refine (p.select_stays pageSize).bind fun found hfound => writeAll_stays ?_ _ []
      intro r hr
      obtain ⟨name, hname, rfl⟩ := List.mem_map.mp hr
      obtain ⟨x, hx, rfl⟩ := List.mem_map.mp hname
      exact hfound x hx
  | delete =>
      cases h
      refine (p.select_stays pageSize).bind fun found hfound => removeAll_stays ?_ []
      intro name hname
      obtain ⟨x, hx, rfl⟩ := List.mem_map.mp hname
      exact hfound x hx

end SubjectPlan

end KeyedRelations
