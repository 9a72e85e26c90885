import Mathlib
import KeyedRelations.Proofs.Plan
import KeyedRelations.Proofs.Presentation
import KeyedRelations.Proofs.Query.Json
import KeyedRelations.Proofs.SortedMap

/-!
# The documents of results

Rows and subjects become members of objects, where a member drops another of its name.  None is
dropped that is not there again: the aliases of a query differ, columns of one name are one column,
and no column has the name of the natural keys.  So the document of a result that was read shows
each row of each subject, and what is printed of it reads back (`Storage.json_reads_back`).

Whether the numeral of a double reads back as the double is a matter of doubles and numerals, and
is assumed of those that are shown (`Value.ReadsBack`).
-/

namespace KeyedRelations

/-! ### Readable documents -/

namespace Json

variable {d : Nat} {j : Json} {items : List Json} {members : List (String × Json)}

/-- **Documents that can be read by all** and are nested to a given depth at most. -/
structure Within (d : Nat) (j : Json) : Prop where
  sound : j.isSound = true
  shallow : j.depth ≤ d

theorem Within.isReadable (h : j.Within d) (hd : d ≤ maxDepth) : j.isReadable = true := by
  have hdepth := h.shallow.trans hd
  simp [Json.isReadable, h.sound, hdepth]

/-- An array is one level deeper than its items. -/
theorem within_array (h : ∀ j ∈ items, j.Within d) : (array items).Within (d + 1) := by
  have hitems : isSoundItems items = true ∧ depthItems items ≤ d := by
    induction items with
    | nil => simp [isSoundItems, depthItems]
    | cons j rest ih =>
        rw [List.forall_mem_cons] at h
        obtain ⟨hsound, hdepth⟩ := ih h.2
        have hfirst := h.1.shallow
        simp only [isSoundItems, depthItems, h.1.sound, hsound]
        exact ⟨rfl, by omega⟩
  exact ⟨hitems.1, by simpa [depth] using hitems.2⟩

/-- An object is one level deeper than its members. -/
theorem within_record (h : ∀ m ∈ members, m.2.Within d) : (record members).Within (d + 1) := by
  have hmembers : isSoundMembers (members.map fun m => (some m.1, m.2)) = true ∧
      depthMembers (members.map fun m => (some m.1, m.2)) ≤ d := by
    induction members with
    | nil => simp [isSoundMembers, depthMembers]
    | cons m rest ih =>
        rw [List.forall_mem_cons] at h
        obtain ⟨hsound, hdepth⟩ := ih h.2
        have hfirst := h.1.shallow
        simp only [List.map_cons, isSoundMembers, depthMembers, h.1.sound, hsound]
        exact ⟨rfl, by omega⟩
  exact ⟨hmembers.1, by simpa [record, depth] using hmembers.2⟩

/-- What is neither a sequence nor a map is not nested. -/
theorem within_of_found {x : Found} (h : j.found = some x) (hseq : x ≠ .sequence)
    (hmap : x ≠ .map) : j.Within 0 := by
  constructor
  · cases j with
    | number n =>
        cases hvalue : n.value? with
        | none => simp [found, hvalue] at h
        | some value => simp [isSound, hvalue]
    | string s =>
        cases s with
        | none => simp [found] at h
        | some s => rfl
    | array items => simp_all [found]
    | object members => simp_all [found]
    | null => rfl
    | bool b => rfl
  · cases j <;> simp_all [found, depth]

/-- Integers of 64 bits are found as such. -/
theorem found_integer (i : Int64) : (integer i.toInt).found = some (.integer i.toInt) := by
  rcases Numeral.value?_ofInt_toInt i with hvalue | ⟨n, hn, hvalue⟩
  · simp only [found, integer, hvalue]
  · simp only [found, integer, hvalue, hn]

end Json

/-! ### Finite doubles -/

section Finite

open Float.Model Float.Model.UnpackedFloat

variable {f : Float}

/-- The bits of the exponent are found by division, too. -/
theorem Decimal.toNat_unpackExponent (f : Float) :
    (@unpackExponent Format.binary64 f.toModel.toBits.toBitVec).toNat =
      f.toBits.toNat / leadingBit % 2048 := by
  simp [unpackExponent, BitVec.extractLsb, BitVec.extractLsb', leadingBit,
    Nat.shiftRight_eq_div_pow]
  rfl

/-- A double is finite unless all bits of its exponent are set. -/
theorem Decimal.isFinite_iff_exponent :
    f.isFinite = true ↔ f.toBits.toNat / leadingBit % 2048 ≠ 2047 := by
  have hones : @unpackExponent Format.binary64 f.toModel.toBits.toBitVec = -1#11 ↔
      f.toBits.toNat / leadingBit % 2048 = 2047 := by
    rw [← toNat_unpackExponent, ← BitVec.toNat_inj]
    rfl
  unfold Float.isFinite Float.Model.isFinite Float.Model.unpack UnpackedFloat.unpack
  simp only [hones]
  split_ifs <;> simp_all [UnpackedFloat.isFinite]

/-- So it is finite if it is neither NaN nor infinite. -/
theorem Decimal.isFinite_iff :
    f.isFinite = true ↔ magnitude f ≠ .nan ∧ magnitude f ≠ .infinite := by
  rw [isFinite_iff_exponent, magnitude]
  split_ifs <;> simp_all

/-- The finite doubles are those that have numerals. -/
theorem Json.Numeral.isSome_ofFloat? (f : Float) : (ofFloat? f).isSome = f.isFinite := by
  rw [Bool.eq_iff_iff, Decimal.isFinite_iff, ofFloat?]
  cases Decimal.magnitude f with
  | nan => simp
  | infinite => simp
  | zero => simp
  | finite m e =>
      obtain ⟨first, more, hdigits⟩ :=
        List.exists_cons_of_ne_nil (Digit.ofNat_ne_nil (Decimal.shortest .even m e).coefficient)
      dsimp only
      split
      · simp
      · simp [hdigits]

end Finite

/-! ### Values -/

namespace Value

/-- What is found where a value is shown: bytes are the text of their hexadecimal digits, and
doubles that are not finite are null. -/
def image : Value → Json.Found
  | .null => .null
  | .bool b => .bool b
  | .int i => .integer i.toInt
  | .float f => if f.isFinite then .real f else .null
  | .text s => .text s
  | .bytes b => .text (.ofList ('0' :: 'x' :: b.flatMap hexByte))

/-- Whether the numeral of a double stands for the double. -/
def ReadsBack (v : Value) : Prop :=
  ∀ f n, v = .float f → Json.Numeral.ofFloat? f = some n → n.value? = some (.real f)

variable {v : Value}

theorem readsBack_of_ne (h : ∀ f, v ≠ .float f) : v.ReadsBack := fun f _ heq _ => (h f heq).elim

/-- No value is shown by a sequence or a map. -/
theorem image_flat (v : Value) : v.image ≠ .sequence ∧ v.image ≠ .map := by
  cases v with
  | float f =>
      rw [image]
      split <;> simp
  | _ => simp [image]

/-- **Where a value is shown its image is found.** -/
theorem found_shown (h : v.ReadsBack) : v.shown.found = some v.image := by
  cases v with
  | null => rfl
  | bool b => rfl
  | int i => exact Json.found_integer i
  | float f =>
      have hnumeral := Json.Numeral.isSome_ofFloat? f
      have hshown : (float f).shown = Json.real f := rfl
      rw [image, ← hnumeral, hshown, Json.real]
      cases hn : Json.Numeral.ofFloat? f with
      | none => rfl
      | some n =>
          have hvalue := h f n rfl hn
          simp [Json.found, hvalue]
  | text s => rfl
  | bytes b => rfl

theorem within_shown (h : v.ReadsBack) : v.shown.Within 0 :=
  Json.within_of_found (found_shown h) v.image_flat.1 v.image_flat.2

end Value

/-! ### Objects -/

namespace Json

variable {members : List (String × Json)}

/-- The object of members that agree on their names has these members, each once. -/
theorem exists_sorted (h : ∀ m ∈ members, ∀ m' ∈ members, m.1 = m'.1 → m = m') :
    ∃ kept, sorted members = record kept ∧ (kept.map (·.1)).Nodup ∧
      ∀ m, m ∈ kept ↔ m ∈ members :=
  ⟨_, rfl, SortedMap.nodup_keys _, fun _ => SortedMap.mem_entries_ofList_of_agree h⟩

end Json

/-! ### Blocks -/

namespace Block

variable {b : Block} {row : Nat} {key : String}

/-- **What is read of a row**: the members of an object, no two of one name.  The natural key stands
under its name, the value of each column under the name of the column, and nothing else stands
there. -/
structure RowRead (b : Block) (row : Nat) (key : String) (members : List (String × Json)) :
    Prop where
  nodup : (members.map (·.1)).Nodup
  names : (members.map (·.1)).Perm ("id" :: (b.columns.map (·.name)).dedup)
  key : ("id", .text key) ∈ members
  values : ∀ c ∈ b.columns, ∃ v j, c.values[row]? = some v ∧ (c.name, j) ∈ members ∧
    j.found = some v.image

/-- **What is read of a block**: an array of objects, one for each row, in their order. -/
def ReadFrom (b : Block) (j : Json) : Prop :=
  ∃ rows, j = .array (rows.map Json.record) ∧
    List.Forall₂ (fun k members => b.RowRead k.2 k.1 members) b.keys.zipIdx rows

/-- **Blocks that documents can show**: regular blocks where columns of one name are one column, and
the numerals of all doubles stand for them. -/
structure Legible (b : Block) : Prop extends Regular b where
  same : ∀ c ∈ b.columns, ∀ c' ∈ b.columns, c.name = c'.name → c = c'
  readsBack : ∀ c ∈ b.columns, ∀ v ∈ c.values, v.ReadsBack

/-- The members of a row before they are put in order. -/
def fields (b : Block) (row : Nat) (key : String) : List (String × Json) :=
  (idColumn, .text key) :: b.columns.map fun c => (c.name, ((c.values[row]?).getD .null).shown)

theorem names_fields (row : Nat) (key : String) :
    (b.fields row key).map (·.1) = "id" :: b.columns.map (·.name) := by
  simp [fields, idColumn]

/-- No column has the name of the natural keys. -/
theorem Regular.id_not_mem (h : b.Regular) : idColumn ∉ b.columns.map (·.name) := by
  intro hmem
  obtain ⟨c, hc, hname⟩ := List.mem_map.mp hmem
  have hnamed := h.named c hc
  rw [hname] at hnamed
  revert hnamed
  decide

/-- The members of a row agree on their names. -/
theorem Legible.agree (h : b.Legible) (row : Nat) (key : String) :
    ∀ m ∈ b.fields row key, ∀ m' ∈ b.fields row key, m.1 = m'.1 → m = m' := by
  have hid := h.id_not_mem
  intro m hm m' hm' hname
  rcases List.mem_cons.mp hm with rfl | hm <;> rcases List.mem_cons.mp hm' with rfl | hm'
  · rfl
  · obtain ⟨c, hc, rfl⟩ := List.mem_map.mp hm'
    exact (hid (List.mem_map.mpr ⟨c, hc, hname.symm⟩)).elim
  · obtain ⟨c, hc, rfl⟩ := List.mem_map.mp hm
    exact (hid (List.mem_map.mpr ⟨c, hc, hname⟩)).elim
  · obtain ⟨c, hc, rfl⟩ := List.mem_map.mp hm
    obtain ⟨c', hc', rfl⟩ := List.mem_map.mp hm'
    obtain rfl := h.same c hc c' hc' hname
    rfl

/-- A row is shown by an object that reads as the row. -/
theorem Legible.exists_row (h : b.Legible) (hrow : row < b.keys.length) :
    ∃ members, Json.sorted (b.fields row key) = .record members ∧ b.RowRead row key members ∧
      ∀ m ∈ members, m.2.Within 0 := by
  obtain ⟨members, hsorted, hnodup, hmem⟩ := Json.exists_sorted (h.agree row key)
  -- a column has a value in the row, and shows it
  have hvalue : ∀ c ∈ b.columns, ∃ v ∈ c.values, c.values[row]? = some v ∧
      (c.name, v.shown) ∈ members := by
    intro c hc
    have heven := h.even c hc
    have hget : c.values[row]? = some c.values[row] := List.getElem?_eq_getElem (by omega)
    refine ⟨c.values[row], List.getElem_mem _, hget, (hmem _).mpr (List.mem_cons_of_mem _ ?_)⟩
    exact List.mem_map.mpr ⟨c, hc, by rw [hget, Option.getD_some]⟩
  refine ⟨members, hsorted, ?_, ?_⟩
  · constructor
    case nodup => exact hnodup
    case names =>
      have hnames : ∀ name, name ∈ members.map (·.1) ↔
          name ∈ "id" :: (b.columns.map (·.name)).dedup := by
        intro name
        rw [List.mem_cons, List.mem_dedup, ← List.mem_cons, ← names_fields (b := b) row key]
        simp only [List.mem_map, hmem]
      refine (List.perm_ext_iff_of_nodup hnodup ?_).mpr hnames
      exact List.nodup_cons.mpr ⟨fun hid => h.id_not_mem (List.mem_dedup.mp hid),
        List.nodup_dedup _⟩
    case key => exact (hmem _).mpr List.mem_cons_self
    case values =>
      intro c hc
      obtain ⟨v, hv, hget, hshown⟩ := hvalue c hc
      exact ⟨v, v.shown, hget, hshown, Value.found_shown (h.readsBack c hc v hv)⟩
  · intro m hm
    rcases List.mem_cons.mp ((hmem m).mp hm) with rfl | hm'
    · exact ⟨rfl, Nat.le_refl 0⟩
    · obtain ⟨c, hc, rfl⟩ := List.mem_map.mp hm'
      obtain ⟨v, hv, hget, -⟩ := hvalue c hc
      rw [hget, Option.getD_some]
      exact Value.within_shown (h.readsBack c hc v hv)

/-- **A block is shown by an array that reads as the block.** -/
theorem Legible.exists_rowsJson? (h : b.Legible) :
    ∃ j, b.rowsJson? = some j ∧ b.ReadFrom j ∧ j.Within 2 := by
  have hrows : ∀ k ∈ b.keys.zipIdx, ∃ members,
      Json.sorted (b.fields k.2 k.1) = .record members ∧ b.RowRead k.2 k.1 members ∧
        ∀ m ∈ members, m.2.Within 0 :=
    fun k hk => h.exists_row (List.snd_lt_of_mem_zipIdx hk)
  choose! members hsorted hread hwithin using hrows
  have hshown : b.rowsJson? = some (.array ((b.keys.zipIdx.map members).map Json.record)) := by
    rw [rowsJson?, rows?_of_even h.even, Option.map_some, List.map_map, List.map_map]
    congr 2
    refine List.map_congr_left fun k hk => ?_
    rw [Function.comp_apply, Function.comp_apply, rowJson, ← hsorted k hk, List.map_map]
    rfl
  refine ⟨_, hshown, ⟨_, rfl, ?_⟩, ?_⟩
  · rw [List.forall₂_map_right_iff, List.forall₂_same]
    exact hread
  · refine Json.within_array fun j hj => ?_
    obtain ⟨fields, hfields, rfl⟩ := List.mem_map.mp hj
    obtain ⟨k, hk, rfl⟩ := List.mem_map.mp hfields
    exact Json.within_record (hwithin k hk)

end Block

/-! ### Results -/

namespace QueryResult

variable {r : QueryResult}

/-- **What is read of a result**: for a single subject its rows, and for several an object with one
member for each alias, which holds the rows of the subject. -/
structure ReadFrom (r : QueryResult) (j : Json) : Prop where
  single : ∀ b, r.blocks = [b] → b.ReadFrom j
  several : 2 ≤ r.blocks.length → ∃ members, j = .record members ∧
    (members.map (·.1)).Nodup ∧ (members.map (·.1)).Perm (r.blocks.map (·.subject)) ∧
      ∀ b ∈ r.blocks, ∃ rows, (b.subject, rows) ∈ members ∧ b.ReadFrom rows

/-- Results of several blocks are shown by the object of their rows. -/
theorem json?_of_several (h : 2 ≤ r.blocks.length) :
    r.json? = (r.blocks.mapM fun (b : Block) =>
      b.rowsJson?.map fun rows => (b.subject, rows)).map .sorted := by
  rw [json?]
  split
  next hnone => simp [hnone] at h
  next b hsingle => simp [hsingle] at h
  next => rfl

/-- **A result is shown by a document that reads as the result.** -/
theorem exists_json? (hlegible : ∀ b ∈ r.blocks, b.Legible)
    (hnodup : (r.blocks.map (·.subject)).Nodup) (hsome : r.blocks ≠ []) :
    ∃ j, r.json? = some j ∧ r.ReadFrom j ∧ j.Within 3 := by
  have hrows : ∀ b ∈ r.blocks, ∃ j, b.rowsJson? = some j ∧ b.ReadFrom j ∧ j.Within 2 :=
    fun b hb => (hlegible b hb).exists_rowsJson?
  choose! rows hshown hread hwithin using hrows
  by_cases hmany : 2 ≤ r.blocks.length
  · have hall : (r.blocks.mapM fun (b : Block) => b.rowsJson?.map fun rows => (b.subject, rows)) =
        some (r.blocks.map fun b => (b.subject, rows b)) := by
      refine mapM_eq_some_map fun b hb => ?_
      rw [hshown b hb, Option.map_some]
    have hagree : ∀ m ∈ r.blocks.map fun b => (b.subject, rows b),
        ∀ m' ∈ r.blocks.map fun b => (b.subject, rows b), m.1 = m'.1 → m = m' := by
      intro m hm m' hm' hname
      obtain ⟨b, hb, rfl⟩ := List.mem_map.mp hm
      obtain ⟨b', hb', rfl⟩ := List.mem_map.mp hm'
      obtain rfl : b = b' := List.inj_on_of_nodup_map hnodup hb hb' hname
      rfl
    obtain ⟨members, hsorted, hdistinct, hmem⟩ := Json.exists_sorted hagree
    refine ⟨.record members, ?_, ⟨?_, fun _ => ⟨members, rfl, hdistinct, ?_, ?_⟩⟩, ?_⟩
    · rw [json?_of_several hmany, hall, Option.map_some, hsorted]
    · intro b hb
      simp [hb] at hmany
    · refine (List.perm_ext_iff_of_nodup hdistinct hnodup).mpr fun name => ?_
      simp [hmem]
    · intro b hb
      exact ⟨rows b, (hmem _).mpr (List.mem_map.mpr ⟨b, hb, rfl⟩), hread b hb⟩
    · refine Json.within_record fun m hm => ?_
      obtain ⟨b, hb, rfl⟩ := List.mem_map.mp ((hmem m).mp hm)
      exact hwithin b hb
  · have hpos := List.length_pos_of_ne_nil hsome
    obtain ⟨b, hb⟩ := List.length_eq_one_iff.mp (by omega : r.blocks.length = 1)
    have hmem : b ∈ r.blocks := by simp [hb]
    refine ⟨rows b, ?_, ⟨?_, fun h => (hmany h).elim⟩, ?_⟩
    · rw [json?, hb]
      exact hshown b hmem
    · rintro b' hb'
      obtain rfl : b' = b := by simpa [hb', eq_comm] using hb
      exact hread b' hmem
    · obtain ⟨hsound, hdepth⟩ := hwithin b hmem
      exact ⟨hsound, by omega⟩

end QueryResult

/-! ### Queries -/

namespace Storage

variable {σ : Type} {handler : Handler σ} {s s' : Storage σ} {q : Query} {main : Option Entity}
  {result : QueryResult}

/-- **What a query that reads answers**: one block for each of its subjects, of which there are
some, under their aliases, which differ.  Columns of one name are one column. -/
theorem blocks_of_execute (haction : q.resolvedAction? = some .select)
    (h : s.execute handler q main = (.ok result, s')) :
    result.blocks ≠ [] ∧ result.blocks.map (·.subject) = q.subjects.map (·.name) ∧
      (result.blocks.map (·.subject)).Nodup ∧
      ∀ b ∈ result.blocks, ∀ c ∈ b.columns, ∀ c' ∈ b.columns, c.name = c'.name → c = c' := by
  have hdispatch : (s.dispatch handler q main).1 = .ok result := by
    rw [← execute_fst, h]
  cases hplan : s.planner.plan q main with
  | error e => simp [dispatch, haction, hplan] at hdispatch
  | ok plan =>
      rw [dispatch_of_plan haction hplan, if_neg (by decide)] at hdispatch
      obtain ⟨hplans, -⟩ := Planner.plan_eq_ok_iff.mp hplan
      have hfound := exists_found_of_select hdispatch
      have hnames : List.Forall₂ (fun p b => b.subject = p.name) plan.subjects result.blocks := by
        refine hfound.imp ?_
        rintro p b ⟨found, hproject⟩
        exact (Block.project_eq_ok hproject).1
      have hsubjects : result.blocks.map (·.subject) = plan.subjects.map (·.name) := by
        rw [← List.forall₂_eq_eq_eq, List.forall₂_map_left_iff, List.forall₂_map_right_iff]
        exact hnames.flip
      refine ⟨?_, ?_, ?_, ?_⟩
      · intro hnone
        rw [hnone, Plan.subjects] at hfound
        cases hfound
      · rw [hsubjects, Planner.names_eq_of_planSubjects hplans]
      · rw [hsubjects]
        exact (Planner.names_of_planSubjects hplans).1
      · intro b hb c hc c' hc'
        obtain ⟨p, found, hproject⟩ := exists_found_of_mem hdispatch hb
        obtain ⟨-, -, -, hmem⟩ := Block.project_eq_ok hproject
        exact Block.same_ofRecords _ _ _ c (hmem c hc) c' (hmem c' hc')

/-- **The JSON of a result reads back.**  Whatever the store is, and whatever keys and values it
holds: what a query that reads has answered is shown as a text, and what is read from the text is
the document of the blocks, one for each subject of the query, under its alias.  Of a single subject
that is an array of its rows, of several an object with just one member for each alias, which is
such an array.  Each row is an object with the natural key, and for each name of a column one
member, which is the image of the value there.  The numerals of the doubles that are shown have to
stand for them. -/
theorem json_reads_back (haction : q.resolvedAction? = some .select)
    (h : s.execute handler q main = (.ok result, s'))
    (hnumerals : ∀ b ∈ result.blocks, ∀ c ∈ b.columns, ∀ v ∈ c.values, v.ReadsBack) :
    result.blocks ≠ [] ∧ result.blocks.map (·.subject) = q.subjects.map (·.name) ∧
      ∃ text j, OutputFormat.json.read? result = some text ∧ Json.read text = .ok j ∧
        j.isReadable = true ∧ result.ReadFrom j := by
  obtain ⟨hsome, hsubjects, hnodup, hsame⟩ := blocks_of_execute haction h
  have hregular := regular_of_execute h
  have hlegible : ∀ b ∈ result.blocks, b.Legible := fun b hb =>
    { toRegular := hregular b hb, same := hsame b hb, readsBack := hnumerals b hb }
  obtain ⟨j, hjson, hread, hwithin⟩ := QueryResult.exists_json? hlegible hnodup hsome
  refine ⟨hsome, hsubjects, j.pretty, j, ?_, Json.read_pretty j, ?_, hread⟩
  · rw [OutputFormat.read?, hjson, Option.map_some]
  · exact hwithin.isReadable (by decide)

/-- A storage of a mark, which is bytes, and of a lap, which is a time. -/
def race (time : Float) : Storage Store :=
  new {} (Pool.ofConfig .default) (Catalog.empty.registerAll [.ofName "marks", .ofName "laps"])
    (Store.perform (.write ⟨.hash, "marks"⟩ "marks:a" (.bytes [0, 255]) .always)
      (Store.perform (.write ⟨.hash, "laps"⟩ "laps:b" (.float time) .always) Store.empty).2).2

/-- All marks and all laps. -/
def marksAndLaps : Query := (Query.onEntity .select "marks").join "laps" "laps"

theorem json_reads_back_race :
    ∃ result s', (race 2.5).execute Store.handler marksAndLaps none = (.ok result, s') ∧
      result.blocks.map (·.keys) = [["a"], ["b"]] ∧
      ∃ text j, OutputFormat.json.read? result = some text ∧ Json.read text = .ok j ∧
        j.isReadable = true ∧ result.ReadFrom j := by
  have haction : marksAndLaps.resolvedAction? = some .select := by cbv
  have hblocks (time : Float) : ((race time).execute Store.handler marksAndLaps none).1.map
      (·.blocks) =
        .ok [⟨"marks", "marks", ["a"],
            [⟨"key", [.text "marks:a"]⟩, ⟨"value", [.bytes [0, 255]]⟩]⟩,
          ⟨"laps", "laps", ["b"], [⟨"key", [.text "laps:b"]⟩, ⟨"value", [.float time]⟩]⟩] := by
    rw [execute_fst]
    cbv
  have htime : (Value.float 2.5).ReadsBack := by
    have hnumeral : Json.Numeral.ofFloat? 2.5 = some ⟨false, 2, [5], none⟩ := by decide +kernel
    have hvalue : (⟨false, 2, [5], none⟩ : Json.Numeral).value? = some (.real 2.5) := by
      decide +kernel
    rintro _ n ⟨⟩ hn
    rw [hnumeral] at hn
    obtain rfl := Option.some.inj hn
    exact hvalue
  rcases hexecute : (race 2.5).execute Store.handler marksAndLaps none with ⟨⟨e⟩ | ⟨result⟩, s'⟩
  · have herror := hblocks 2.5
    rw [hexecute] at herror
    cases herror
  · have hresult := hblocks 2.5
    rw [hexecute] at hresult
    have hshown : result.blocks = _ := Except.ok.inj hresult
    have hnumerals : ∀ b ∈ result.blocks, ∀ c ∈ b.columns, ∀ v ∈ c.values, v.ReadsBack := by
      rw [hshown]
      simp [htime, Value.readsBack_of_ne]
    obtain ⟨-, -, hreads⟩ := json_reads_back haction hexecute hnumerals
    exact ⟨result, s', rfl, by rw [hshown]; rfl, hreads⟩

end Storage

end KeyedRelations
