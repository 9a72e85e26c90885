import KeyedRelations.Assembly
import KeyedRelations.Proofs.Entity
import KeyedRelations.Proofs.Selection.Reading

/-!
# What blocks show

A block promises that every column is as long as its keys, that the names in its `key` column
belong to the keys beside them, and that no key stands twice; nothing in the type keeps that.
It is so for the block of genuine records, since their names are different and all start with
the entity's prefix, and picking columns keeps it (`Block.Shows.project`).  Columns can be picked
if the block has them (`Block.exists_project`).
-/

namespace KeyedRelations

/-- Putting results together succeeds if each of them is there. -/
theorem mapM_eq_some_map {α β : Type} {f : α → Option β} {g : α → β} {l : List α}
    (h : ∀ a ∈ l, f a = some (g a)) : l.mapM f = some (l.map g) := by
  induction l with
  | nil => rfl
  | cons a rest ih =>
      have hrest := ih fun b hb => h b (List.mem_cons_of_mem a hb)
      rw [List.mapM_cons, h a List.mem_cons_self, hrest]
      rfl

namespace Genuine

variable {c : Collection} {e : Entity} {t : Trees} {found : Records c.kind}

/-- The names of records behind an entity's prefix are those of their natural keys. -/
theorem recordName_naturalKey
    (h : Genuine c t (fun name => ∃ key, name = e.recordName key) found) :
    (found.names.map e.naturalKey).map e.recordName = found.names := by
  refine Entity.map_recordName_naturalKey fun name hname => ?_
  obtain ⟨r, hr, rfl⟩ := List.mem_map.mp hname
  exact h.named r hr

/-- They have natural keys of their own. -/
theorem nodup_keys (h : Genuine c t (fun name => ∃ key, name = e.recordName key) found) :
    (found.names.map e.naturalKey).Nodup := by
  refine List.Nodup.of_map e.recordName ?_
  rw [h.recordName_naturalKey]
  exact h.nodup

end Genuine

namespace Block

/-- **What a block shows of an entity** whose records are stored. -/
structure Shows (b : Block) (e : Entity) (st : Store) : Prop where
  /-- Every column has a value for each key. -/
  even : ∀ c ∈ b.columns, c.values.length = b.keys.length
  /-- No key stands twice. -/
  nodup : b.keys.Nodup
  /-- The names of records are those of the keys in their rows. -/
  named : ∀ c ∈ b.columns, c.name = keyColumn →
    c.values = b.keys.map fun key => .text (e.recordName key)
  /-- What records hold is what the records of the keys in their rows hold. -/
  held : ∀ c ∈ b.columns, e.kind.payloadColumn? = some c.name →
    List.Forall₂ (fun key v => ∃ payload, v = e.kind.value payload ∧
      st.read ⟨e.kind, e.containerKey⟩ (e.recordName key) = .ok (some payload))
      b.keys c.values
  /-- Columns of one name are one column. -/
  same : ∀ c ∈ b.columns, ∀ c' ∈ b.columns, c.name = c'.name → c = c'

variable {b b' : Block} {e : Entity} {st : Store}

/-- Even columns reach every row. -/
theorem rows?_of_even (h : ∀ c ∈ b.columns, c.values.length = b.keys.length) :
    b.rows? = some (b.keys.zipIdx.map fun k =>
      (k.1, b.columns.map fun c => (c.name, (c.values[k.2]?).getD .null))) := by
  refine mapM_eq_some_map fun k hk => ?_
  have hbound : k.2 < b.keys.length := List.snd_lt_of_mem_zipIdx hk
  have hrow : b.row? k.2 =
      some (b.columns.map fun c => (c.name, (c.values[k.2]?).getD .null)) := by
    refine mapM_eq_some_map fun c hc => ?_
    have hvalue : k.2 < c.values.length := by
      have heven := h c hc
      omega
    simp [hvalue]
  rw [hrow]
  rfl

/-- The rows that are shown have the keys and the names of the columns. -/
theorem Shows.exists_rows (h : b.Shows e st) :
    ∃ rows, b.rows? = some rows ∧ rows.map (·.1) = b.keys ∧
      ∀ row ∈ rows, row.2.map (·.1) = b.columns.map (·.name) := by
  refine ⟨_, rows?_of_even h.even, ?_, ?_⟩
  · rw [List.map_map]
    exact List.zipIdx_map_fst 0 b.keys
  intro row hmem
  obtain ⟨k, -, rfl⟩ := List.mem_map.mp hmem
  simp

/-- A column is found under its name. -/
theorem Shows.column?_eq (h : b.Shows e st) {c : Column} (hc : c ∈ b.columns) :
    b.column? c.name = some c := by
  unfold column?
  cases hfind : b.columns.find? (·.name = c.name) with
  | none =>
      have hnone := List.find?_eq_none.mp hfind c hc
      simp at hnone
  | some found =>
      have hname : found.name = c.name := by simpa using List.find?_some hfind
      rw [h.same found (List.mem_of_find?_eq_some hfind) c hc hname]

/-- Looking up a key finds the value in its row. -/
theorem Shows.lookup?_eq (h : b.Shows e st) {c : Column} (hc : c ∈ b.columns) {row : Nat}
    (hrow : row < b.keys.length) : b.lookup? b.keys[row] c.name = c.values[row]? := by
  have hindex : b.keys.findIdx? (· = b.keys[row]) = some row := by
    rw [List.findIdx?_eq_some_iff_getElem]
    refine ⟨hrow, by simp, fun j hj => ?_⟩
    have hne : b.keys[j] ≠ b.keys[row] := by
      intro heq
      have hsame := (List.Nodup.getElem_inj_iff h.nodup).mp heq
      omega
    simpa using hne
  rw [lookup?, hindex, Option.bind_some, get?, h.column?_eq hc, Option.bind_some]

/-- Columns that are picked are those of the names, taken from the block. -/
theorem pick_eq_ok {names : List String} {columns : List Column}
    (h : project.pick b names = .ok columns) :
    columns.map (·.name) = names ∧ ∀ c ∈ columns, c ∈ b.columns := by
  induction names generalizing columns with
  | nil =>
      obtain rfl := Except.ok.inj h
      exact ⟨rfl, by simp⟩
  | cons name rest ih =>
      rw [project.pick] at h
      cases hfind : b.column? name with
      | none => simp [hfind] at h
      | some c =>
          rw [hfind] at h
          obtain ⟨more, hrest, rfl⟩ := exists_of_map h
          obtain ⟨hnames, hmem⟩ := ih hrest
          have hname : c.name = name := by simpa using List.find?_some hfind
          refine ⟨by rw [List.map_cons, hname, hnames], ?_⟩
          rintro c' (_ | ⟨_, hc'⟩)
          · exact List.mem_of_find?_eq_some hfind
          · exact hmem c' hc'

/-- A projection shows the same keys under the names that are asked for. -/
theorem project_eq_ok {names : List String} (h : b.project names = .ok b') :
    b'.subject = b.subject ∧ b'.keys = b.keys ∧
      b'.columns.map (·.name) = (if names.isEmpty then b.columns.map (·.name) else names) ∧
      ∀ c ∈ b'.columns, c ∈ b.columns := by
  rw [project] at h
  split at h
  next hall =>
    obtain rfl := Except.ok.inj h
    exact ⟨rfl, rfl, by rw [if_pos hall], fun c hc => hc⟩
  next hsome =>
    obtain ⟨columns, hpick, rfl⟩ := exists_of_map h
    obtain ⟨hnames, hmem⟩ := pick_eq_ok hpick
    exact ⟨rfl, rfl, by rw [if_neg hsome]; exact hnames, hmem⟩

theorem exists_pick {names : List String}
    (h : ∀ name ∈ names, ∃ c, b.column? name = some c) :
    ∃ columns, project.pick b names = .ok columns := by
  induction names with
  | nil => exact ⟨[], rfl⟩
  | cons name rest ih =>
      obtain ⟨c, hc⟩ := h name List.mem_cons_self
      obtain ⟨columns, hcolumns⟩ := ih fun name' hname' => h name' (List.mem_cons_of_mem _ hname')
      exact ⟨c :: columns, by simp [project.pick, hc, hcolumns, Except.map]⟩

/-- Picking columns that a block has keeps its records. -/
theorem exists_project {names : List String}
    (h : ∀ name ∈ names, ∃ c, b.column? name = some c) :
    ∃ shown, b.project names = .ok shown ∧ shown.subject = b.subject ∧ shown.keys = b.keys := by
  rw [project]
  split
  next => exact ⟨b, rfl, rfl, rfl⟩
  next =>
    obtain ⟨columns, hcolumns⟩ := exists_pick h
    exact ⟨{ b with columns }, by rw [hcolumns]; rfl, rfl, rfl⟩

/-- **Picking columns keeps what a block shows.** -/
theorem Shows.project (h : b.Shows e st) {names : List String} (hp : b.project names = .ok b') :
    b'.Shows e st := by
  obtain ⟨-, hkeys, -, hmem⟩ := project_eq_ok hp
  constructor
  case even => exact fun c hc => hkeys ▸ h.even c (hmem c hc)
  case nodup => exact hkeys ▸ h.nodup
  case named => exact fun c hc => hkeys ▸ h.named c (hmem c hc)
  case held => exact fun c hc => hkeys ▸ h.held c (hmem c hc)
  case same => exact fun c hc c' hc' => h.same c (hmem c hc) c' (hmem c' hc')

/-! ### Blocks of records -/

/-- The names of records never stand in a payload column. -/
theorem payloadColumn?_ne_key (s : Structure) : s.payloadColumn? ≠ some keyColumn := by
  cases s <;> decide

/-- The block of records has all columns of their structure. -/
theorem names_ofRecords {s : Structure} (name : String) (entity : Entity) (found : Records s) :
    (ofRecords name entity found).columns.map (·.name) =
      keyColumn :: s.payloadColumn?.toList := by
  simp [ofRecords, nameColumn, payloadColumns, Function.comp_def]

/-- They are the column of names and the column of what the records hold. -/
theorem mem_columns_ofRecords {s : Structure} {name : String} {entity : Entity}
    {found : Records s} {c : Column} (hc : c ∈ (ofRecords name entity found).columns) :
    c = nameColumn found.names ∨
      s.payloadColumn? = some c.name ∧ c.values = found.map fun r => s.value r.2 := by
  rcases List.mem_cons.mp hc with hc | hc
  · exact Or.inl hc
  · obtain ⟨column, hcolumn, rfl⟩ := List.mem_map.mp hc
    exact Or.inr ⟨by simpa using hcolumn, rfl⟩

/-- Either column has a value for each record. -/
theorem even_ofRecords {s : Structure} (name : String) (entity : Entity) (found : Records s) :
    ∀ c ∈ (ofRecords name entity found).columns,
      c.values.length = (ofRecords name entity found).keys.length := by
  intro c hc
  rcases mem_columns_ofRecords hc with rfl | ⟨-, hvalues⟩
  · simp [nameColumn, ofRecords, Records.names]
  · simp [hvalues, ofRecords, Records.names]

/-- Columns of one name are one column. -/
theorem same_ofRecords {s : Structure} (name : String) (entity : Entity) (found : Records s) :
    ∀ c ∈ (ofRecords name entity found).columns, ∀ c' ∈ (ofRecords name entity found).columns,
      c.name = c'.name → c = c' := by
  intro c hc c' hc' hname
  rcases mem_columns_ofRecords hc with rfl | ⟨hpayload, hvalues⟩ <;>
    rcases mem_columns_ofRecords hc' with rfl | ⟨hpayload', hvalues'⟩
  · rfl
  · exact (payloadColumn?_ne_key _ (hname ▸ hpayload')).elim
  · exact (payloadColumn?_ne_key _ (hname ▸ hpayload)).elim
  · obtain ⟨column, values⟩ := c
    obtain ⟨column', values'⟩ := c'
    obtain rfl : column = column' := hname
    obtain rfl : values = _ := hvalues
    obtain rfl : values' = _ := hvalues'
    rfl

/-- The block of records has the columns of their structure. -/
theorem exists_column?_ofRecords {s : Structure} {column : String} (h : s.hasColumn column = true)
    (name : String) (entity : Entity) (found : Records s) :
    ∃ c, (ofRecords name entity found).column? column = some c := by
  rw [← Option.isSome_iff_exists, column?, List.find?_isSome]
  rcases Bool.or_eq_true _ _ ▸ h with h | h
  · exact ⟨_, List.mem_cons_self, by simpa [nameColumn, eq_comm] using h⟩
  · have h : s.payloadColumn? = some column := by simpa using h
    refine ⟨⟨column, found.map fun r => s.value r.2⟩, List.mem_cons_of_mem _ ?_, by simp⟩
    simp [payloadColumns, h]

/-- **The block of genuine records shows them.** -/
theorem shows_ofRecords {found : Records e.kind}
    (h : Genuine ⟨e.kind, e.containerKey⟩ st.trees (fun name => ∃ key, name = e.recordName key)
      found)
    (name : String) : (ofRecords name e found).Shows e st := by
  have hnames := h.recordName_naturalKey
  constructor
  case even => exact even_ofRecords name e found
  case nodup => exact h.nodup_keys
  case named =>
    intro c hc hname
    rcases mem_columns_ofRecords hc with rfl | ⟨hpayload, -⟩
    · calc (nameColumn found.names).values
          = ((found.names.map e.naturalKey).map e.recordName).map Value.text := by
              rw [hnames, nameColumn]
        _ = (found.names.map e.naturalKey).map fun key => .text (e.recordName key) :=
              List.map_map
    · rw [hname] at hpayload
      exact (payloadColumn?_ne_key _ hpayload).elim
  case held =>
    intro c hc hpayload
    rcases mem_columns_ofRecords hc with rfl | ⟨-, hvalues⟩
    · exact (payloadColumn?_ne_key _ hpayload).elim
    · rw [hvalues, ofRecords, Records.names, List.map_map, List.forall₂_map_left_iff,
        List.forall₂_map_right_iff, List.forall₂_same]
      intro r hr
      refine ⟨r.2, rfl, ?_⟩
      obtain ⟨key, hkey⟩ := h.named r hr
      have hread := Collection.mem_records_iff.mp (h.stored r hr)
      simpa [hkey] using hread
  case same => exact same_ofRecords name e found

end Block

end KeyedRelations
