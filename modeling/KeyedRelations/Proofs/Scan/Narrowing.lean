import Mathlib
import KeyedRelations.Proofs.Scan.Stored

/-!
# Narrowing a scan to a range

A round starts at the first key that has the literal prefix of its pattern and stops at the first
key behind that lacks it.  Every match has the prefix (`Glob.literalPrefix_isPrefix`) and the keys
that have it are contiguous (`not_isPrefix_of_lt`), so nothing that matches lies outside, whatever
else the tree holds (`Store.narrowing_hides_nothing`).
-/

namespace KeyedRelations.Store

variable {pattern name : String}

/-- Every match among the examined entries is shown, unless one of them cannot be. -/
theorem mem_names_of_visitAll {s : Structure} {skip : Nat} {examined : List (Key × s.Form)}
    {items : List (String × s.Item)} (h : visitAll s skip pattern examined = .ok items)
    {e : Key × s.Form} (he : e ∈ examined) (hname : Utf8.text? (e.1.drop skip) = some name)
    (haccepts : Glob.accepts pattern name = true) : name ∈ items.map (·.1) := by
  induction examined generalizing items with
  | nil => cases he
  | cons e' rest ih =>
      rw [visitAll] at h
      cases hvisit : visit s skip pattern e' with
      | error error => simp [hvisit] at h
      | ok shown =>
          cases hrest : visitAll s skip pattern rest with
          | error error => simp [hvisit, hrest] at h
          | ok others =>
              simp only [hvisit, hrest] at h
              cases h
              rw [List.map_append, List.mem_append]
              rcases List.mem_cons.mp he with rfl | he
              · left
                simp only [visit, hname, haccepts, if_pos] at hvisit
                cases hreveal : s.reveal name e.2 with
                | error error => simp [hreveal, Except.map] at hvisit
                | ok item =>
                    rw [hreveal] at hvisit
                    cases hvisit
                    simp
              · exact Or.inr (ih hrest he)

/-- The entries that the first round of a scan comes to before it meets a key outside its
range. -/
def reached {α : Type} (entries : List (Key × α)) (range : Key) : List (Key × α) :=
  (entries.dropWhile fun e => (Bound.atOrAfter range).excludes e.1).takeWhile
    fun e => range.isPrefixOf e.1

/-- These are all entries in the range. -/
theorem reached_eq_filter {α : Type} {entries : List (Key × α)}
    (hsorted : entries.Pairwise (·.1 < ·.1)) (range : Key) :
    reached entries range = entries.filter fun e => range.isPrefixOf e.1 := by
  rw [reached, takeWhile_dropWhile_eq_filter hsorted fun e _ => Bound.past_atOrAfter range e.1]
  exact List.filter_congr fun e _ => Bound.atOrAfter_and_isPrefixOf range e.1

/-- They stand together. -/
theorem reached_isInfix {α : Type} (entries : List (Key × α)) (range : Key) :
    reached entries range <:+: entries :=
  (List.takeWhile_prefix _).isInfix.trans (List.dropWhile_suffix _).isInfix

/-- **Narrowing hides nothing.**  What matches a pattern starts with the pattern's literal prefix,
by characters and by bytes.  So, whatever a tree holds, its entries have one contiguous part that
the first round of a scan comes to before it stops, by its limit or at a key outside the range;
this part has every entry of the collection whose name matches, and a round that may examine all of
it answers every such name, unless it fails. -/
theorem narrowing_hides_nothing (pattern : String) :
    (∀ text, Glob.accepts pattern text = true →
      (Glob.literalPrefix pattern).toList <+: text.toList ∧
        Utf8.bytes (Glob.literalPrefix pattern) <+: Utf8.bytes text) ∧
    ∀ (c : Collection) (base : Key), c.base = .ok base → ∀ st : Store,
      ∃ before visited after,
        (st.trees.tree c.kind).entries = before ++ visited ++ after ∧
        (∀ limit, examine (st.trees.tree c.kind).entries (.atOrAfter (rangeOf base pattern))
          (rangeOf base pattern) limit = visited.take limit) ∧
        ∀ name form, (base ++ Utf8.bytes name, form) ∈ (st.trees.tree c.kind).entries →
          Glob.accepts pattern name = true →
            (base ++ Utf8.bytes name, form) ∈ visited ∧
            ∀ count page st', visited.length ≤ max count 1 →
              st.scan c 0 pattern count = (.ok page, st') → name ∈ page.items.map (·.1) := by
  refine ⟨fun text haccepts => ?_, fun c base hbase st => ?_⟩
  · have hbytes := Glob.literalPrefix_isPrefix haccepts
    exact ⟨Utf8.toList_isPrefix hbytes, hbytes⟩
  · have hresume := resume?_start st.cursors (rangeOf base pattern)
    obtain ⟨before, after, hsplit⟩ := reached_isInfix (st.trees.tree c.kind).entries
      (rangeOf base pattern)
    refine ⟨before, _, after, hsplit.symm, fun limit => rfl, fun name form hentry haccepts => ?_⟩
    have hmem : (base ++ Utf8.bytes name, form) ∈
        reached (st.trees.tree c.kind).entries (rangeOf base pattern) := by
      rw [reached_eq_filter (st.trees.tree c.kind).ascending]
      exact List.mem_filter.mpr
        ⟨hentry, List.isPrefixOf_iff_prefix.mpr (rangeOf_isPrefix haccepts base)⟩
    refine ⟨hmem, fun count page st' hlimit hscan => ?_⟩
    rw [scan_of_resume st hbase hresume count (List.take_of_length_le hlimit)] at hscan
    split at hscan
    next => cases congrArg Prod.fst hscan
    next items hitems =>
      cases congrArg Prod.fst hscan
      exact mem_names_of_visitAll hitems hmem (by simp) haccepts

/-- A hash. -/
def stars : Collection := ⟨.hash, "stars"⟩

/-- A store of the hash with two fields that have a star in their names, one that has none, and
an entry whose name is no text. -/
def threeStars : Store :=
  Store.putRaw .hash [115, 116, 97, 114, 115, 0, 98, 255] [1]
    (Store.perform (.write stars "b*1" (.int 1) .always)
      (Store.perform (.write stars "b*2" (.int 2) .always)
        (Store.perform (.write stars "b1" .null .always) Store.empty).2).2).2

theorem narrowing_hides_nothing_threeStars :
    stars.base = .ok [115, 116, 97, 114, 115, 0] ∧ Glob.accepts "b\\*?" "b*1" = true ∧
      (Glob.literalPrefix "b\\*?").toList <+: "b*1".toList ∧
      "b*1" ∈ ((threeStars.scan stars 0 "b\\*?" 5).1.toOption.map fun page =>
        page.items.map (·.1)).getD [] := by
  have hbase : stars.base = .ok [115, 116, 97, 114, 115, 0] := by cbv
  have haccepts : Glob.accepts "b\\*?" "b*1" = true := by cbv
  obtain ⟨hstart, hstored⟩ := narrowing_hides_nothing "b\\*?"
  obtain ⟨before, visited, after, hentries, -, hvisited⟩ := hstored stars _ hbase threeStars
  have hentry : ([115, 116, 97, 114, 115, 0] ++ Utf8.bytes "b*1", Stored.intact (Value.int 1)) ∈
      (threeStars.trees.tree stars.kind).entries := SortedMap.get?_eq_some_iff.mp (by cbv)
  have hlength : (threeStars.trees.tree stars.kind).entries.length = 4 := by cbv
  have hfew : visited.length ≤ max 5 1 := by
    rw [hentries, List.length_append, List.length_append] at hlength
    omega
  obtain ⟨page, st', hscan⟩ : ∃ page st', threeStars.scan stars 0 "b\\*?" 5 = (.ok page, st') :=
    ⟨_, _, by cbv⟩
  refine ⟨hbase, haccepts, (hstart _ haccepts).1, ?_⟩
  rw [hscan]
  exact (hvisited _ _ hentry haccepts).2 5 page st' hfew hscan

end KeyedRelations.Store
