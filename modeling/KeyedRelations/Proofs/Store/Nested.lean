import KeyedRelations.Proofs.Scan.Rest
import Mathlib.Logic.Function.Basic

/-!
# Nested maps

To a client the embedded store is a store of nested maps (`Nested`): the lists' records by
name, and for each other structure a map from container keys to records by name.  The embedded
store keeps all containers of a structure in one tree of bytes, but no request can tell: it
answers all requests as nested maps do, in any sequence (`Store.refines_nested`).

A tree represents nested maps if under the key of every record stands what the maps hold for
it (`Represents`).  Container keys end at the first separator, so the keys of different
containers are apart, whatever bytes the names have.
-/

namespace KeyedRelations

/-! ### Requests -/

/-- What a client asks of a collection: something about one record, or a list of all records,
by a scan with rounds that examine up to `count` records. -/
inductive Request where
  | read (c : Collection) (name : String)
  | write (c : Collection) (name : String) (payload : c.kind.Payload) (mode : WriteMode)
  | remove (c : Collection) (name : String)
  | list (c : Collection) (count : Nat)

namespace Request

/-- The collection that a request is about. -/
def collection : Request → Collection
  | read c _ | write c .. | remove c _ | list c _ => c

/-- What a request is answered with. -/
abbrev Answer : Request → Type
  | read c _ => Option c.kind.Payload
  | write .. | remove .. => Bool
  | list c _ => List (String × c.kind.Item)

/-- The answers to requests that are made one after the other, each beside its request, and
the state after them. -/
def serveAll {σ : Type} (serve : (r : Request) → σ → Except StoreError r.Answer × σ) :
    List Request → σ → List ((r : Request) × Except StoreError r.Answer) × σ
  | [], s => ([], s)
  | r :: rest, s =>
    let first := serve r s
    let others := serveAll serve rest first.2
    (⟨r, first.1⟩ :: others.1, others.2)

end Request

/-- The items of a scan from a cursor on, page after page until no round follows.  It is given
up if it is not over within the given number of rounds. -/
def Store.pages (c : Collection) (pattern : String) (count : Nat) :
    Nat → Nat → Store → Except StoreError (List (String × c.kind.Item)) × Store
  | 0, _, st => (.error .endlessScan, st)
  | rounds + 1, cursor, st =>
    match st.scan c cursor pattern count with
    | (.error e, st) => (.error e, st)
    | (.ok page, st) =>
      if page.isLast then (.ok page.items, st)
      else
        let others := pages c pattern count rounds page.cursor st
        (others.1.map (page.items ++ ·), others.2)

/-- What the embedded store does with a request. -/
def Store.serve : (r : Request) → Store → Except StoreError r.Answer × Store
  | .read c name, st => st.perform (.read c name)
  | .write c name payload mode, st => st.perform (.write c name payload mode)
  | .remove c name, st => st.perform (.remove c name)
  | .list c count, st => st.pages c "*" count (st.trees.size + 1) 0

/-! ### Stores of nested maps -/

/-- A name, in the order of its bytes. -/
structure Name where
  text : String
  deriving DecidableEq, Repr

instance : LT Name := ⟨fun a b => Utf8.bytes a.text < Utf8.bytes b.text⟩

instance : DecidableLT Name := fun a b =>
  inferInstanceAs (Decidable (Utf8.bytes a.text < Utf8.bytes b.text))

instance : KeyOrder Name where
  irrefl a := KeyOrder.irrefl (Utf8.bytes a.text)
  trans hab hbc := KeyOrder.trans (κ := Key) hab hbc
  eq_of_not_lt {a b} hab hba := by
    have hbytes : Utf8.bytes a.text = Utf8.bytes b.text := KeyOrder.eq_of_not_lt hab hba
    have htext : a.text = b.text := Utf8.bytes_injective hbytes
    exact congrArg Name.mk htext

/-- Records by name. -/
abbrev Members (s : Structure) : Type := SortedMap Name s.Payload

/-- A store of nested maps: four parts that have nothing to do with each other. -/
structure Nested where
  lists : Members .list
  sets : String → Members .set
  hashes : String → Members .hash
  sortedSets : String → Members .sortedSet

/-- Whether a collection has a container key that no collection may have. -/
def Collection.Refused (c : Collection) : Prop :=
  c.kind ≠ .list ∧ '\x00' ∈ c.container.toList

instance (c : Collection) : Decidable c.Refused := inferInstanceAs (Decidable (_ ∧ _))

/-- Collections of different structures, or of one with different container keys. -/
def Collection.Apart (c c' : Collection) : Prop :=
  c.kind ≠ c'.kind ∨ c.kind ≠ .list ∧ c.container ≠ c'.container

namespace Nested

variable {n n' : Nested} {c c' : Collection}

/-- No records. -/
def empty : Nested := ⟨.empty, fun _ => .empty, fun _ => .empty, fun _ => .empty⟩

/-- The records of a collection. -/
def members (n : Nested) : (c : Collection) → Members c.kind
  | ⟨.list, _⟩ => n.lists
  | ⟨.set, container⟩ => n.sets container
  | ⟨.hash, container⟩ => n.hashes container
  | ⟨.sortedSet, container⟩ => n.sortedSets container

/-- The store with other records in a collection. -/
def put (n : Nested) : (c : Collection) → Members c.kind → Nested
  | ⟨.list, _⟩, m => { n with lists := m }
  | ⟨.set, container⟩, m => { n with sets := Function.update n.sets container m }
  | ⟨.hash, container⟩, m => { n with hashes := Function.update n.hashes container m }
  | ⟨.sortedSet, container⟩, m =>
    { n with sortedSets := Function.update n.sortedSets container m }

/-- What nested maps answer to a request on a collection that may be, and what they hold
afterwards. -/
def perform (n : Nested) : (r : Request) → r.Answer × Nested
  | .read c name => ((n.members c).get? ⟨name⟩, n)
  | .write c name payload mode =>
    if mode.permits ((n.members c).contains ⟨name⟩) then
      (true, n.put c ((n.members c).insert ⟨name⟩ payload))
    else (false, n)
  | .remove c name => ((n.members c).contains ⟨name⟩, n.put c ((n.members c).erase ⟨name⟩))
  | .list c _ => ((n.members c).entries.map fun e => (e.1.text, c.kind.item e.2), n)

/-- What nested maps do with a request. -/
def serve (r : Request) (n : Nested) : Except StoreError r.Answer × Nested :=
  if r.collection.Refused then (.error (.invalidKey r.collection.container), n)
  else (.ok (n.perform r).1, (n.perform r).2)

@[simp]
theorem members_put_self (n : Nested) (c : Collection) (m : Members c.kind) :
    (n.put c m).members c = m := by
  obtain ⟨kind, container⟩ := c
  cases kind <;> simp [put, members]

theorem members_put_of_apart (h : c'.Apart c) (m : Members c.kind) :
    (n.put c m).members c' = n.members c' := by
  obtain ⟨kind, container⟩ := c
  obtain ⟨kind', container'⟩ := c'
  rw [Collection.Apart] at h
  cases kind <;> cases kind' <;> simp_all [put, members]

theorem serve_of_refused {r : Request} (h : r.collection.Refused) (n : Nested) :
    n.serve r = (.error (.invalidKey r.collection.container), n) := if_pos h

theorem serve_of_not_refused {r : Request} (h : ¬ r.collection.Refused) (n : Nested) :
    n.serve r = (.ok (n.perform r).1, (n.perform r).2) := if_neg h

/-- A request changes no other collection than its own. -/
theorem serve_of_apart (r : Request) (n : Nested) (h : c.Apart r.collection) :
    (n.serve r).2.members c = n.members c := by
  by_cases hrefused : r.collection.Refused
  · rw [serve_of_refused hrefused]
  · rw [serve_of_not_refused hrefused]
    cases r with
    | read | list => rfl
    | write c' name payload mode =>
        dsimp only [perform]
        split
        · exact members_put_of_apart h _
        · rfl
    | remove c' name => exact members_put_of_apart h _

/-- What it answers and what it makes of its collection depend on that collection only. -/
theorem serve_of_members {r : Request} (h : n.members r.collection = n'.members r.collection) :
    (n.serve r).1 = (n'.serve r).1 ∧
      (n.serve r).2.members r.collection = (n'.serve r).2.members r.collection := by
  by_cases hrefused : r.collection.Refused
  · rw [serve_of_refused hrefused, serve_of_refused hrefused]
    exact ⟨rfl, h⟩
  · rw [serve_of_not_refused hrefused, serve_of_not_refused hrefused]
    cases r with
    | read c name | list c count =>
        dsimp only [Request.collection, perform] at h ⊢
        rw [h]
        exact ⟨rfl, rfl⟩
    | write c name payload mode =>
        dsimp only [Request.collection, perform] at h ⊢
        rw [h]
        split
        · exact ⟨rfl, by rw [members_put_self, members_put_self]⟩
        · exact ⟨rfl, h⟩
    | remove c name =>
        dsimp only [Request.collection, perform] at h ⊢
        rw [h]
        exact ⟨rfl, by rw [members_put_self, members_put_self]⟩

end Nested

/-! ### Refused container keys -/

namespace Utf8

/-- The separator is the byte of one character. -/
theorem separator_mem_encodeChar_iff {c : Char} :
    separator ∈ String.utf8EncodeChar c ↔ '\x00' = c := by
  have hnul : '\x00' = c ↔ c.val.toNat = 0 := by
    constructor
    · rintro rfl
      rfl
    · exact fun hval => Char.ext (UInt32.toNat_inj.mp hval.symm)
  rw [hnul, String.utf8EncodeChar]
  generalize c.val.toNat = v
  split
  · simp only [separator, List.mem_singleton, ← UInt8.toNat_inj, UInt8.toNat_ofNat,
      UInt8.toNat_ofNat']
    omega
  · -- the bytes of longer characters are all 128 or more
    have hlong : ∀ w, 128 ≤ w → w < 256 → separator ≠ UInt8.ofNat w := by
      intro w hlow hhigh
      simp only [separator, ne_eq, ← UInt8.toNat_inj, UInt8.toNat_ofNat, UInt8.toNat_ofNat']
      omega
    have hfirst := hlong (v / 64 % 32 + 192) (by omega) (by omega)
    have hfirst' := hlong (v / 4096 % 16 + 224) (by omega) (by omega)
    have hfirst'' := hlong (v / 262144 % 8 + 240) (by omega) (by omega)
    have htail := fun w => hlong (w % 64 + 128) (by omega) (by omega)
    split
    · simp only [List.mem_cons, List.not_mem_nil, hfirst, htail, or_self, false_iff]
      omega
    · split <;>
        simp only [List.mem_cons, List.not_mem_nil, hfirst', hfirst'', htail, or_self,
          false_iff] <;>
        omega

/-- It is in the bytes of a text if that character is in the text. -/
theorem separator_mem_bytes_iff {s : String} : separator ∈ bytes s ↔ '\x00' ∈ s.toList := by
  have hbytes : bytes s = s.toList.flatMap String.utf8EncodeChar := by
    rw [bytes, ← String.utf8Encode_toList, List.utf8Encode, List.toList_data_toByteArray]
  rw [hbytes, List.mem_flatMap]
  constructor
  · rintro ⟨c, hc, hmem⟩
    rwa [separator_mem_encodeChar_iff.mp hmem]
  · exact fun hmem => ⟨_, hmem, separator_mem_encodeChar_iff.mpr rfl⟩

end Utf8

namespace Collection

variable {c c' : Collection} {base base' : Key}

theorem base_of_refused (h : c.Refused) : c.base = .error (.invalidKey c.container) := by
  cases hbase : c.base with
  | error e => rw [eq_invalidKey_of_base hbase]
  | ok base =>
      rcases base_eq_ok_iff.mp hbase with ⟨hlist, -⟩ | ⟨-, hsep, -⟩
      · exact absurd hlist h.1
      · exact absurd (Utf8.separator_mem_bytes_iff.mpr h.2) hsep

theorem exists_base_of_not_refused (h : ¬ c.Refused) : ∃ base, c.base = .ok base := by
  by_cases hlist : c.kind = .list
  · exact ⟨[], base_eq_ok_iff.mpr (Or.inl ⟨hlist, rfl⟩)⟩
  · exact exists_base fun hsep => h ⟨hlist, Utf8.separator_mem_bytes_iff.mp hsep⟩

/-- Keys of records of collections that are apart in one structure are different. -/
theorem key_ne_of_apart (hkind : c'.kind = c.kind) (h : c'.Apart c) (hbase : c.base = .ok base)
    (hbase' : c'.base = .ok base') (name name' : String) :
    base' ++ Utf8.bytes name' ≠ base ++ Utf8.bytes name := by
  intro heq
  obtain rfl : base' = base := base_eq_of_isPrefix hkind hbase hbase' (List.prefix_append _ _)
    (heq ▸ List.prefix_append _ _)
  rcases h with hkinds | ⟨hlist, hcontainers⟩
  · exact hkinds hkind
  · exact hcontainers (container_eq_of_base (hkind ▸ hlist) hlist hbase hbase')

end Collection

/-- The embedded store refuses what nested maps refuse. -/
theorem Store.serve_of_refused {r : Request} (h : r.collection.Refused) (st : Store) :
    st.serve r = (.error (.invalidKey r.collection.container), st) := by
  cases r with
  | read c name =>
      have hkey := c.keyOf_of_base_error (Collection.base_of_refused h) name
      rw [serve, perform, read, hkey]
      rfl
  | write c name payload mode =>
      exact write_of_base_error (Collection.base_of_refused h) name payload mode
  | remove c name => exact remove_of_base_error (Collection.base_of_refused h) name
  | list c count =>
      have hbase := Collection.base_of_refused (c := c) h
      rw [serve, pages, scan, hbase]
      rfl

/-! ### Whole scans -/

section Pages

variable {c : Collection} {t : Trees} {base : Key} {pattern : String} {bound : Store.Bound}
  {cursors resumed : Cursors} {cursor : Nat}

/-- The pages of a scan come to its rest, if there may be more rounds than there are entries
ahead. -/
theorem Store.pages_rest (hbase : c.base = .ok base) (count : Nat) {n : Nat}
    (hresume : resume? cursors cursor (rangeOf base pattern) = some (bound, resumed))
    (hpast : bound.Past (rangeOf base pattern))
    (hn : ((t.tree c.kind).ahead bound (rangeOf base pattern)).length < n) :
    ∃ after, pages c pattern count n cursor ⟨t, cursors⟩ =
      (c.rest t base pattern bound, ⟨t, after⟩) := by
  induction n generalizing cursors resumed cursor bound with
  | zero => omega
  | succ n ih =>
      rw [pages]
      rcases scan_rest ⟨t, cursors⟩ hbase hresume hpast count with
        ⟨e, hrest, hscan⟩ | ⟨items, hrest, hscan⟩ | ⟨key, items, hrange, hrest, hfewer, hscan⟩
      · exact ⟨resumed, by rw [hscan, hrest]⟩
      · exact ⟨resumed, by rw [hscan, hrest]; rfl⟩
      · obtain ⟨afterResume, hissued, -⟩ := resume?_issue resumed key (rangeOf base pattern)
        obtain ⟨after, hpages⟩ := ih hissued (Bound.past_after hrange)
          (Nat.lt_of_lt_of_le hfewer (Nat.lt_succ_iff.mp hn))
        have hlast : (Page.mk resumed.next items).isLast = false := by
          simp [Page.isLast, Cursors.next]
        refine ⟨after, ?_⟩
        rw [hscan]
        dsimp only
        rw [hlast, hpages, hrest]
        rfl

/-- A whole scan of a sound collection for all names shows its records. -/
theorem Collection.Sound.pages (h : c.Sound t) (hbase : c.base = .ok base) (count : Nat)
    (cursors : Cursors) :
    ∃ after, Store.pages c "*" count (t.size + 1) 0 ⟨t, cursors⟩ =
      (.ok ((c.records t).map fun r => (r.1, c.kind.item r.2)), ⟨t, after⟩) := by
  have hrange : Store.rangeOf base "*" = base := by
    have hprefix : Glob.literalPrefix "*" = "" := by decide
    rw [Store.rangeOf, hprefix]
    exact List.append_nil base
  have hresume := Store.resume?_start cursors (Store.rangeOf base "*")
  have hrounds := t.length_ahead_le c.kind (.atOrAfter (Store.rangeOf base "*"))
    (Store.rangeOf base "*")
  obtain ⟨after, hpages⟩ := Store.pages_rest hbase count hresume (Store.Bound.past_atOrAfter _)
    (Nat.lt_succ_of_le hrounds)
  have hahead : (t.tree c.kind).ahead (.atOrAfter base) base =
      (c.records t).map (c.kind.entryOf base) := by
    rw [← h.entries_eq hbase]
    refine List.filter_congr fun e _ => ?_
    cases hkey : base.isPrefixOf e.1 with
    | false => simp
    | true =>
        have hpast := not_lt_of_isPrefix (List.isPrefixOf_iff_prefix.mp hkey)
        simp [Store.Bound.excludes, hpast]
  have hshown : c.shown "*" (c.records t) = (c.records t).map fun r => (r.1, c.kind.item r.2) := by
    rw [shown, List.filter_eq_self.mpr fun r _ => Glob.accepts_star r.1]
  refine ⟨after, ?_⟩
  rw [hpages, rest, hrange, hahead, visitAll_entries, hshown]

end Pages

/-! ### Trees for nested maps -/

/-- Trees under whose keys stands what nested maps hold, and nothing that could not. -/
structure Represents (t : Trees) (n : Nested) : Prop where
  sound : ∀ c : Collection, c.Sound t
  held : ∀ (c : Collection) (base : Key), c.base = .ok base → ∀ name,
    (t.tree c.kind).get? (base ++ Utf8.bytes name) =
      ((n.members c).get? ⟨name⟩).map c.kind.store

namespace Represents

variable {t : Trees} {n : Nested} {c : Collection} {base : Key}

theorem empty : Represents .empty .empty where
  sound := Collection.sound_empty
  held c base _ name := by
    obtain ⟨kind, container⟩ := c
    cases kind <;> rfl

/-- A record is there if nested maps have it. -/
theorem contains (h : Represents t n) (hbase : c.base = .ok base) (name : String) :
    (t.tree c.kind).contains (base ++ Utf8.bytes name) = (n.members c).contains ⟨name⟩ := by
  rw [SortedMap.contains, SortedMap.contains, h.held c base hbase, Option.isSome_map]

/-- What reading finds is what nested maps hold. -/
theorem read (h : Represents t n) (hbase : c.base = .ok base) (name : String)
    (cursors : Cursors) :
    Store.read c name ⟨t, cursors⟩ = .ok ((n.members c).get? ⟨name⟩) := by
  rw [Store.read_of_base hbase, h.held c base hbase]
  cases (n.members c).get? ⟨name⟩ <;> simp [Except.map]

/-- The records of a collection are those of nested maps, in the order of their names. -/
theorem records (h : Represents t n) (hbase : c.base = .ok base) :
    c.records t = (n.members c).entries.map fun e => (e.1.text, e.2) := by
  have hentries : (c.records t).map (fun r => (Name.mk r.1, r.2)) = (n.members c).entries := by
    refine SortedMap.eq_of_ascending (List.pairwise_map.mpr (c.records_ascending t))
      (n.members c).ascending fun e => ?_
    obtain ⟨⟨name⟩, payload⟩ := e
    have hread := h.read hbase name .empty
    have hmem : (name, payload) ∈ c.records t ↔ (⟨name⟩, payload) ∈ (n.members c).entries := by
      rw [← SortedMap.get?_eq_some_iff]
      have hrecord := @Collection.mem_records_iff c name payload ⟨t, .empty⟩
      rw [hread] at hrecord
      simpa using hrecord
    rw [← hmem]
    constructor
    · intro hin
      obtain ⟨r, hr, heq⟩ := List.mem_map.mp hin
      obtain ⟨hname, rfl⟩ := Prod.mk.inj heq
      obtain rfl := Name.mk.inj hname
      exact hr
    · exact fun hin => List.mem_map.mpr ⟨_, hin, rfl⟩
  rw [← hentries, List.map_map]
  exact (List.map_id' _).symm

/-- **One record is written or removed** in the trees as in nested maps. -/
theorem update (h : Represents t n) (hbase : c.base = .ok base) (name : String)
    {tree : Tree c.kind} {members : Members c.kind}
    (hsound : ∀ c' : Collection, c'.Sound (t.update c.kind tree))
    (hself : tree.get? (base ++ Utf8.bytes name) = (members.get? ⟨name⟩).map c.kind.store)
    (htree : ∀ key, key ≠ base ++ Utf8.bytes name → tree.get? key = (t.tree c.kind).get? key)
    (hmembers : ∀ other, other ≠ ⟨name⟩ → members.get? other = (n.members c).get? other) :
    Represents (t.update c.kind tree) (n.put c members) where
  sound := hsound
  held c' base' hbase' name' := by
    have hown : tree.get? (base ++ Utf8.bytes name') =
        (members.get? ⟨name'⟩).map c.kind.store := by
      by_cases hname : name' = name
      · rw [hname, hself]
      · have hkey : base ++ Utf8.bytes name' ≠ base ++ Utf8.bytes name := fun heq =>
          hname (Utf8.bytes_injective (List.append_cancel_left heq))
        rw [htree _ hkey, hmembers _ fun heq => hname (Name.mk.inj heq), h.held c base hbase]
    by_cases hkind : c'.kind = c.kind
    · by_cases hcontainer : c'.kind = .list ∨ c'.container = c.container
      · obtain ⟨kind, container⟩ := c
        obtain ⟨kind', container'⟩ := c'
        obtain rfl : kind' = kind := hkind
        rcases hcontainer with hlist | hcontainer
        · obtain rfl : kind' = .list := hlist
          obtain rfl : base = [] := (Except.ok.inj hbase).symm
          obtain rfl : base' = [] := (Except.ok.inj hbase').symm
          exact hown
        · obtain rfl : container' = container := hcontainer
          obtain rfl : base = base' := Except.ok.inj (hbase.symm.trans hbase')
          rw [Trees.tree_update_self, Nested.members_put_self]
          exact hown
      · have happart : c'.Apart c := Or.inr (not_or.mp hcontainer)
        have hkey := Collection.key_ne_of_apart hkind happart hbase hbase' name name'
        rw [Nested.members_put_of_apart happart]
        obtain ⟨kind, container⟩ := c
        obtain ⟨kind', container'⟩ := c'
        obtain rfl : kind' = kind := hkind
        dsimp only at tree htree hbase' ⊢
        rw [Trees.tree_update_self, htree _ hkey]
        exact h.held ⟨kind', container'⟩ base' hbase' name'
    · rw [Trees.tree_update_of_ne t tree hkind, Nested.members_put_of_apart (Or.inl hkind)]
      exact h.held c' base' hbase' name'

/-- **One request** is answered as by nested maps, and what the trees hold goes on to be what
nested maps hold. -/
theorem serve (h : Represents t n) (r : Request) (cursors : Cursors) :
    (Store.serve r ⟨t, cursors⟩).1 = (n.serve r).1 ∧
      Represents (Store.serve r ⟨t, cursors⟩).2.trees (n.serve r).2 := by
  by_cases hrefused : r.collection.Refused
  · rw [Store.serve_of_refused hrefused, Nested.serve_of_refused hrefused]
    exact ⟨rfl, h⟩
  rw [Nested.serve_of_not_refused hrefused]
  cases r with
  | read c name =>
      obtain ⟨base, hbase⟩ := Collection.exists_base_of_not_refused (c := c) hrefused
      rw [Store.serve, Store.perform, h.read hbase]
      exact ⟨rfl, h⟩
  | write c name payload mode =>
      obtain ⟨base, hbase⟩ := Collection.exists_base_of_not_refused (c := c) hrefused
      rw [Store.serve, Store.perform, Store.write_of_base hbase, Nested.perform]
      dsimp only
      rw [h.contains hbase]
      split
      · refine ⟨rfl, h.update hbase name (fun c' => (h.sound c').insert hbase name payload) ?_
          (fun key hkey => ?_) fun other hother => ?_⟩
        · rw [SortedMap.get?_insert_self, SortedMap.get?_insert_self, Option.map_some]
        · exact SortedMap.get?_insert_of_ne _ _ hkey
        · exact SortedMap.get?_insert_of_ne _ _ hother
      · exact ⟨rfl, h⟩
  | remove c name =>
      obtain ⟨base, hbase⟩ := Collection.exists_base_of_not_refused (c := c) hrefused
      rw [Store.serve, Store.perform, Store.remove_of_base hbase, Nested.perform]
      dsimp only
      rw [h.contains hbase]
      refine ⟨rfl, h.update hbase name (fun c' => (h.sound c').erase c.kind _) ?_
        (fun key hkey => ?_) fun other hother => ?_⟩
      · rw [SortedMap.get?_erase_self, SortedMap.get?_erase_self, Option.map_none]
      · exact SortedMap.get?_erase_of_ne _ hkey
      · exact SortedMap.get?_erase_of_ne _ hother
  | list c count =>
      obtain ⟨base, hbase⟩ := Collection.exists_base_of_not_refused (c := c) hrefused
      obtain ⟨after, hpages⟩ := (h.sound c).pages hbase count cursors
      rw [Store.serve]
      dsimp only
      rw [hpages, h.records hbase, List.map_map]
      exact ⟨rfl, h⟩

/-- **A run** of requests is answered as by nested maps. -/
theorem serveAll (requests : List Request) {st : Store} (h : Represents st.trees n) :
    (Request.serveAll Store.serve requests st).1 = (Request.serveAll Nested.serve requests n).1 ∧
      Represents (Request.serveAll Store.serve requests st).2.trees
        (Request.serveAll Nested.serve requests n).2 := by
  induction requests generalizing st n with
  | nil => exact ⟨rfl, h⟩
  | cons r rest ih =>
      obtain ⟨hanswer, hafter⟩ := h.serve r st.cursors
      obtain ⟨hanswers, hend⟩ := ih hafter
      rw [Request.serveAll, Request.serveAll]
      dsimp only
      rw [← hanswer, ← hanswers]
      exact ⟨rfl, hend⟩

end Represents

/-- **The embedded store is a store of nested maps.**  From the empty store on, every sequence
of requests about single records and whole collections is answered as by nested maps, and the
store's collections hold what the maps hold.  A container key with a zero byte is refused, and
that changes nothing.  In nested maps every request changes its own collection at most, and
depends on that alone. -/
theorem Store.refines_nested :
    (∀ requests,
      let run := Request.serveAll Store.serve requests Store.empty
      let nested := Request.serveAll Nested.serve requests Nested.empty
      run.1 = nested.1 ∧ ∀ c : Collection, ¬ c.Refused →
        c.records run.2.trees = (nested.2.members c).entries.map fun e => (e.1.text, e.2)) ∧
    (∀ (r : Request) (st : Store), r.collection.Refused →
      st.serve r = (.error (.invalidKey r.collection.container), st)) ∧
    (∀ (r : Request) (n : Nested) (c : Collection), c.Apart r.collection →
      (n.serve r).2.members c = n.members c) ∧
    ∀ (r : Request) (n n' : Nested), n.members r.collection = n'.members r.collection →
      (n.serve r).1 = (n'.serve r).1 ∧
        (n.serve r).2.members r.collection = (n'.serve r).2.members r.collection := by
  refine ⟨fun requests => ?_, fun _ st h => serve_of_refused h st,
    fun r n _ => n.serve_of_apart r, fun _ _ _ => Nested.serve_of_members⟩
  have hstart : Represents Store.empty.trees Nested.empty := .empty
  obtain ⟨hanswers, hend⟩ := hstart.serveAll requests
  refine ⟨hanswers, fun c hrefused => ?_⟩
  obtain ⟨base, hbase⟩ := Collection.exists_base_of_not_refused hrefused
  exact hend.records hbase

/-- Two sets of which one key starts with the other, a member with a zero byte, and a key that
is refused. -/
def zeroBytes : List Request :=
  [.write ⟨.set, "a"⟩ "b\x00c" () .ifAbsent, .write ⟨.set, "ab"⟩ "c" () .ifAbsent,
    .list ⟨.set, "a"⟩ 1, .read ⟨.set, "a\x00b"⟩ "c"]

theorem Store.refines_nested_zeroBytes :
    (Collection.mk .set "a\x00b").Refused ∧
      (Request.serveAll Store.serve zeroBytes Store.empty).1 =
        [⟨.write ⟨.set, "a"⟩ "b\x00c" () .ifAbsent, .ok true⟩,
          ⟨.write ⟨.set, "ab"⟩ "c" () .ifAbsent, .ok true⟩,
          ⟨.list ⟨.set, "a"⟩ 1, .ok [("b\x00c", ())]⟩,
          ⟨.read ⟨.set, "a\x00b"⟩ "c", .error (.invalidKey "a\x00b")⟩] := by
  refine ⟨by decide, (refines_nested.1 zeroBytes).1.trans ?_⟩
  rfl

end KeyedRelations
