import KeyedRelations.Proofs.Mutation.Territory
import KeyedRelations.Proofs.Storage.Alike

/-!
# What queries depend on

A query depends on what stands in the territories of its subjects, on the settings of the
storage and on whether there are handles, and it changes nothing elsewhere: it is **confined**
(`Storage.confined_execute`), whatever the store holds.  Which cursors are open, how they are
numbered, which handles are idle and which error was the last does not matter
(`Storage.execute_same`).

Two uses of a storage that are confined to territories apart can change places
(`Storage.Confined.commute`).
-/

namespace KeyedRelations

/-- Trees with the same entries are the same. -/
theorem Trees.ext_get? {t t' : Trees}
    (h : ∀ kind key, (t.tree kind).get? key = (t'.tree kind).get? key) : t = t' := by
  have htree : ∀ kind, t.tree kind = t'.tree kind := fun kind => SortedMap.ext_get? (h kind)
  obtain ⟨lists, sets, hashes, sortedSets⟩ := t
  obtain ⟨lists', sets', hashes', sortedSets'⟩ := t'
  rw [Trees.mk.injEq]
  exact ⟨htree .list, htree .set, htree .hash, htree .sortedSet⟩

namespace Storage

variable {α ρ ρ' : Type} {s s' : Storage Store} {T : Territory} {q : Query}

/-! ### Uses of the store -/

/-- A use of the store that depends on a territory only and changes nothing outside. -/
structure Local (T : Territory) (use : Store → Except QueryError α × Store) : Prop where
  agree : ∀ st st', T.Agree st.trees st'.trees →
    (use st).1 = (use st').1 ∧ T.Agree (use st).2.trees (use st').2.trees
  outside : ∀ st kind key, ¬ T kind key →
    ((use st).2.trees.tree kind).get? key = (st.trees.tree kind).get? key

/-- Programs of a subject are local to its territory. -/
theorem local_perform {p : SubjectPlan} {Q : α → Prop} {program : Program α}
    (h : p.Stays Q program) (s : Storage Store) :
    Local p.territory (s.perform Store.handler program) where
  agree st st' hagree := by
    obtain ⟨after, -, hrun⟩ := h.plain.run_eq st.trees st.cursors
    obtain ⟨after', -, hrun'⟩ := h.plain.run_eq st'.trees st'.cursors
    obtain ⟨hresult, htrees⟩ := h.agree hagree
    rw [perform, perform]
    dsimp only
    rw [hrun, hrun', hresult]
    exact ⟨rfl, htrees⟩
  outside st kind key hout := by
    obtain ⟨after, -, hrun⟩ := h.plain.run_eq st.trees st.cursors
    rw [perform]
    dsimp only
    rw [hrun]
    exact h.outside hout st.trees

theorem local_apply (s : Storage Store) (action : Action) (q : Query) (p : SubjectPlan) :
    Local p.territory (s.apply Store.handler action q p) := by
  cases hprogram : p.mutation (s.planner.origin q) q.assignments s.config.pageSize action with
  | error e =>
      have happly : ∀ st, s.apply Store.handler action q p st = (.error e, st) := fun st => by
        rw [apply, hprogram]
      refine ⟨fun st st' hagree => ?_, fun st kind key _ => ?_⟩
      · rw [happly, happly]
        exact ⟨rfl, hagree⟩
      · rw [happly]
  | ok program =>
      have happly : s.apply Store.handler action q p = s.perform Store.handler program := by
        funext st
        rw [apply, hprogram]
      rw [happly]
      exact local_perform (SubjectPlan.mutation_stays hprogram) s

/-! ### Uses of the storage -/

/-- What a use of a storage does depends on a territory only, among storages like a given one,
and it changes nothing outside. -/
structure Confined (s₀ : Storage Store) (T : Territory)
    (f : Storage Store → ρ × Storage Store) : Prop where
  alike : ∀ s, Alike s₀ s → Alike s (f s).2
  agree : ∀ s s', Alike s₀ s → Alike s₀ s' → T.Agree s.store.trees s'.store.trees →
    (f s).1 = (f s').1 ∧ T.Agree (f s).2.store.trees (f s').2.store.trees
  outside : ∀ s, Alike s₀ s → ∀ kind key, ¬ T kind key →
    ((f s).2.store.trees.tree kind).get? key = (s.store.trees.tree kind).get? key

/-- Answering something by the settings alone is confined to any territory. -/
theorem confined_of_answer {s₀ : Storage Store} {T : Territory}
    {f : Storage Store → ρ × Storage Store} {r : ρ}
    (h : ∀ s, Alike s₀ s → f s = (r, s)) : Confined s₀ T f where
  alike s hs := by
    rw [h s hs]
    exact .refl hs.opens'
  agree s s' hs hs' hagree := by
    rw [h s hs, h s' hs']
    exact ⟨rfl, hagree⟩
  outside s hs kind key _ := by rw [h s hs]

/-- A local use through a handle is confined. -/
theorem confined_lease {s₀ : Storage Store} {T : Territory}
    {use : Storage Store → Store → Except QueryError α × Store} (hlocal : Local T (use s₀))
    (hsame : ∀ s, Alike s₀ s → use s = use s₀) : Confined s₀ T fun s => s.lease (use s) := by
  cases hfree : s₀.pool.free with
  | false =>
      refine confined_of_answer (r := .error (s₀.backend
        (.acquireTimeout s₀.pool.config.acquireTimeout))) fun s hs => ?_
      rw [lease_of_not_free (hs.free.trans hfree), hs.backend, hs.poolConfig]
  | true =>
      -- every storage like this one has a handle, and has it again afterwards
      have hlease : ∀ s, Alike s₀ s → ∃ pool : Pool, s.lease (use s) =
            ((use s₀ s.store).1, { s with pool, store := (use s₀ s.store).2 }) ∧
          Alike s { s with pool, store := (use s₀ s.store).2 } := by
        intro s hs
        rw [hsame s hs]
        exact lease_of_free hs.opens' (hs.free.trans hfree) (use s₀)
      refine ⟨fun s hs => ?_, fun s s' hs hs' hagree => ?_, fun s hs kind key hout => ?_⟩
      · obtain ⟨pool, heq, halike⟩ := hlease s hs
        rw [heq]
        exact halike
      · obtain ⟨pool, heq, -⟩ := hlease s hs
        obtain ⟨pool', heq', -⟩ := hlease s' hs'
        rw [heq, heq']
        exact hlocal.agree s.store s'.store hagree
      · obtain ⟨pool, heq, -⟩ := hlease s hs
        rw [heq]
        exact hlocal.outside s.store kind key hout

namespace Confined

variable {s₀ : Storage Store} {T' : Territory} {f : Storage Store → ρ × Storage Store}

/-- What is made of the result of a confined use by the settings is confined too. -/
theorem map (h : Confined s₀ T f) (result : ρ → ρ') {g : Storage Store → ρ' × Storage Store}
    (hg : ∀ s, Alike s₀ s → (g s).1 = result (f s).1 ∧ (g s).2.store = (f s).2.store ∧
      Alike (f s).2 (g s).2) : Confined s₀ T g where
  alike s hs := (h.alike s hs).trans (hg s hs).2.2
  agree s s' hs hs' hagree := by
    obtain ⟨hresult, hstore, -⟩ := hg s hs
    obtain ⟨hresult', hstore', -⟩ := hg s' hs'
    obtain ⟨hsame, htrees⟩ := h.agree s s' hs hs' hagree
    rw [hresult, hresult', hsame, hstore, hstore']
    exact ⟨rfl, htrees⟩
  outside s hs kind key hout := by
    obtain ⟨-, hstore, -⟩ := hg s hs
    rw [hstore]
    exact h.outside s hs kind key hout

theorem congr (h : Confined s₀ T f) {g : Storage Store → ρ × Storage Store}
    (hg : ∀ s, Alike s₀ s → g s = f s) : Confined s₀ T g :=
  h.map id fun s hs => by
    rw [hg s hs]
    exact ⟨rfl, rfl, .refl (h.alike s hs).opens'⟩

/-- What is confined to a territory is confined to every larger one. -/
theorem mono (h : Confined s₀ T f) (hsub : ∀ kind key, T kind key → T' kind key) :
    Confined s₀ T' f where
  alike := h.alike
  agree s s' hs hs' hagree := by
    obtain ⟨hresult, htrees⟩ := h.agree s s' hs hs' fun kind key hkey =>
      hagree kind key (hsub kind key hkey)
    refine ⟨hresult, fun kind key hkey => ?_⟩
    by_cases hown : T kind key
    · exact htrees kind key hown
    · rw [h.outside s hs kind key hown, h.outside s' hs' kind key hown]
      exact hagree kind key hkey
  outside s hs kind key hout := h.outside s hs kind key fun hown => hout (hsub kind key hown)

/-- One confined use after another, which may depend on what the first came to. -/
theorem andThen (h : Confined s₀ T f) {g : ρ → Storage Store → ρ' × Storage Store}
    (hg : ∀ r, Confined s₀ T (g r)) : Confined s₀ T fun s => g (f s).1 (f s).2 where
  alike s hs := (h.alike s hs).trans ((hg _).alike _ (hs.trans (h.alike s hs)))
  agree s s' hs hs' hagree := by
    obtain ⟨hresult, htrees⟩ := h.agree s s' hs hs' hagree
    rw [hresult]
    exact (hg _).agree _ _ (hs.trans (h.alike s hs)) (hs'.trans (h.alike s' hs')) htrees
  outside s hs kind key hout :=
    ((hg _).outside _ (hs.trans (h.alike s hs)) kind key hout).trans (h.outside s hs kind key hout)

/-- A confined use does the same to storages that are alike and have the same trees. -/
theorem same (h : Confined s₀ T f) (hs : Alike s₀ s) (hs' : Alike s₀ s')
    (htrees : s.store.trees = s'.store.trees) :
    (f s).1 = (f s').1 ∧ (f s).2.store.trees = (f s').2.store.trees := by
  obtain ⟨hresult, hagree⟩ := h.agree s s' hs hs' fun kind key _ => by rw [htrees]
  refine ⟨hresult, Trees.ext_get? fun kind key => ?_⟩
  by_cases hown : T kind key
  · exact hagree kind key hown
  · rw [h.outside s hs kind key hown, h.outside s' hs' kind key hown, htrees]

/-- **Confined uses can change places** if their territories are apart: each comes to the same
and so do the trees. -/
theorem commute {f' : Storage Store → ρ' × Storage Store}
    (h : Confined s₀ T f)
    (h' : Confined s₀ T' f')
    (hopens : s₀.pool.Opens)
    (hapart : ∀ kind key, T kind key → ¬ T' kind key) :
    (f s₀).1 = (f (f' s₀).2).1 ∧ (f' (f s₀).2).1 = (f' s₀).1 ∧
      (f' (f s₀).2).2.store.trees = (f (f' s₀).2).2.store.trees := by
  have hself := Alike.refl hopens
  have hfirst := h.alike s₀ hself
  have hfirst' := h'.alike s₀ hself
  -- what the other has done lies outside
  have hkept : T.Agree s₀.store.trees (f' s₀).2.store.trees := fun kind key hkey =>
    (h'.outside s₀ hself kind key (hapart kind key hkey)).symm
  have hkept' : T'.Agree s₀.store.trees (f s₀).2.store.trees := fun kind key hkey =>
    (h.outside s₀ hself kind key fun hown => hapart kind key hown hkey).symm
  obtain ⟨hresult, htrees⟩ := h.agree s₀ _ hself hfirst' hkept
  obtain ⟨hresult', htrees'⟩ := h'.agree s₀ _ hself hfirst hkept'
  refine ⟨hresult, hresult'.symm, Trees.ext_get? fun kind key => ?_⟩
  by_cases hown : T kind key
  · rw [h'.outside _ hfirst kind key (hapart kind key hown)]
    exact htrees kind key hown
  · rw [h.outside _ hfirst' kind key hown]
    by_cases hother : T' kind key
    · exact (htrees' kind key hother).symm
    · rw [h'.outside _ hfirst kind key hother, h'.outside _ hself kind key hother,
        h.outside _ hself kind key hown]

end Confined

/-! ### Queries -/

section Subjects

variable {s₀ : Storage Store}

theorem confined_readSubject (s₀ : Storage Store) (q : Query) (p : SubjectPlan) :
    Confined s₀ p.territory fun s => s.readSubject Store.handler q p := by
  have hlease : Confined s₀ p.territory fun s =>
      s.lease (s.perform Store.handler (p.select s.config.pageSize)) :=
    confined_lease (local_perform (p.select_stays s₀.config.pageSize) s₀) fun s hs => by
      rw [hs.config, hs.perform]
  refine hlease.map (fun r => r.bind (s₀.present q p)) fun s hs => ?_
  have halike := hlease.alike s hs
  rw [readSubject]
  rcases hleased : s.lease (s.perform Store.handler (p.select s.config.pageSize)) with
    ⟨⟨_⟩ | ⟨found⟩, s'⟩
  · rw [hleased] at halike
    exact ⟨rfl, rfl, .refl halike.opens'⟩
  · rw [hleased] at halike
    exact ⟨(hs.trans halike).present q p found, rfl, .refl halike.opens'⟩

theorem confined_readInTurn {subjects : List SubjectPlan}
    (hT : ∀ p ∈ subjects, ∀ kind key, p.territory kind key → T kind key) :
    Confined s₀ T fun s => readInTurn Store.handler q subjects s := by
  induction subjects with
  | nil => exact confined_of_answer fun s _ => rfl
  | cons p rest ih =>
      have hrest := ih fun p' hp' => hT p' (List.mem_cons_of_mem _ hp')
      have hfirst := (confined_readSubject s₀ q p).mono (hT p List.mem_cons_self)
      refine (hfirst.andThen (g := fun r s => match r with
        | .error e => (.error e, s)
        | .ok block => ((readInTurn Store.handler q rest s).1.map (block :: ·),
            (readInTurn Store.handler q rest s).2)) fun r => ?_).congr fun s _ => ?_
      · cases r with
        | error e => exact confined_of_answer fun s _ => rfl
        | ok block =>
            exact hrest.map (·.map (block :: ·)) fun s hs =>
              ⟨rfl, rfl, .refl (hrest.alike s hs).opens'⟩
      · rw [readInTurn]
        rcases s.readSubject Store.handler q p with ⟨⟨e⟩ | ⟨block⟩, s'⟩ <;> rfl

theorem confined_readEach {subjects : List SubjectPlan}
    (hT : ∀ p ∈ subjects, ∀ kind key, p.territory kind key → T kind key) :
    Confined s₀ T fun s => readEach Store.handler q subjects s := by
  induction subjects with
  | nil => exact confined_of_answer fun s _ => rfl
  | cons p rest ih =>
      have hrest := ih fun p' hp' => hT p' (List.mem_cons_of_mem _ hp')
      have hfirst := (confined_readSubject s₀ q p).mono (hT p List.mem_cons_self)
      exact hfirst.andThen (g := fun r s => (r :: (readEach Store.handler q rest s).1,
        (readEach Store.handler q rest s).2)) fun r => hrest.map (r :: ·) fun s hs =>
          ⟨rfl, rfl, .refl (hrest.alike s hs).opens'⟩

theorem confined_select {plan : Plan}
    (hT : ∀ p ∈ plan.subjects, ∀ kind key, p.territory kind key → T kind key) :
    Confined s₀ T fun s => s.select Store.handler q plan := by
  by_cases hparallel : s₀.config.parallel ∧ !plan.others.isEmpty
  · have heach : Confined s₀ T fun s => readEach Store.handler q plan.subjects s :=
      confined_readEach hT
    refine heach.map (fun r => (gather r).map .ofRead) fun s hs => ?_
    rw [select, hs.config, if_pos hparallel]
    exact ⟨rfl, rfl, .refl (heach.alike s hs).opens'⟩
  · have hturn : Confined s₀ T fun s => readInTurn Store.handler q plan.subjects s :=
      confined_readInTurn hT
    refine hturn.map (·.map .ofRead) fun s hs => ?_
    rw [select, hs.config, if_neg hparallel]
    exact ⟨rfl, rfl, .refl (hturn.alike s hs).opens'⟩

theorem confined_write {plan : Plan} (action : Action)
    (hT : ∀ p ∈ plan.subjects, ∀ kind key, p.territory kind key → T kind key) :
    Confined s₀ T fun s => s.write Store.handler action q plan := by
  by_cases honly : plan.others.isEmpty
  · have hlease := (confined_lease (local_apply s₀ action q plan.primary) fun s hs =>
      hs.apply action q plan.primary).mono (hT plan.primary List.mem_cons_self)
    refine hlease.map (fun r => r.map fun names =>
      .ofWrite (.ofNames plan.primary.name plan.primary.entity names)) fun s hs => ?_
    have hopens := (hlease.alike s hs).opens'
    rw [write, if_pos honly]
    rcases hleased : s.lease (s.apply Store.handler action q plan.primary) with
      ⟨⟨_⟩ | ⟨names⟩, s'⟩ <;>
      rw [hleased] at hopens <;> exact ⟨rfl, rfl, .refl hopens⟩
  · exact confined_of_answer fun s hs => by rw [write, if_neg honly, hs.planner]

/-- Executing is dispatching, for all that a confined use is about. -/
theorem alike_remember (hopens : s.pool.Opens) (r : Except QueryError α) :
    Alike s (s.remember r) ∧ (s.remember r).store = s.store := by
  cases r <;> exact ⟨⟨rfl, rfl, rfl, rfl, rfl, hopens, hopens⟩, rfl⟩

/-- **A query is confined** to every territory that has those of its subjects. -/
theorem confined_execute {main : Option Entity}
    (hT : ∀ plan, s₀.planner.plan q main = .ok plan →
      ∀ p ∈ plan.subjects, ∀ kind key, p.territory kind key → T kind key) :
    Confined s₀ T fun s => s.execute Store.handler q main := by
  have hdispatch : Confined s₀ T fun s => s.dispatch Store.handler q main := by
    cases haction : q.resolvedAction? with
    | none =>
        refine confined_of_answer (r := .error (.unknownAction q.action (s₀.planner.origin q)))
          fun s hs => ?_
        simp only [dispatch, haction, hs.planner]
    | some action =>
        cases hplan : s₀.planner.plan q main with
        | error e =>
            refine confined_of_answer (r := .error e) fun s hs => ?_
            simp only [dispatch, haction, hs.planner, hplan]
        | ok plan =>
            have heq : ∀ s, Alike s₀ s → s.dispatch Store.handler q main =
                if action.isWrite then s.write Store.handler action q plan
                else s.select Store.handler q plan := fun s hs =>
              dispatch_of_plan haction (hs.planner ▸ hplan)
            cases hwrite : action.isWrite with
            | true =>
                simp only [hwrite, if_true] at heq
                exact (confined_write action (hT plan hplan)).congr heq
            | false =>
                simp only [hwrite, Bool.false_eq_true, if_false] at heq
                exact (confined_select (hT plan hplan)).congr heq
  refine hdispatch.map id fun s hs => ?_
  have hopens := (hdispatch.alike s hs).opens'
  obtain ⟨halike, hstore⟩ := alike_remember hopens (s.dispatch Store.handler q main).1
  rw [execute_eq]
  exact ⟨rfl, hstore, halike⟩

end Subjects

/-- A query may touch any tree, as far as nothing is known of it. -/
theorem confined_everywhere (s₀ : Storage Store) (q : Query) (main : Option Entity) :
    Confined s₀ (fun _ _ => True) fun s => s.execute Store.handler q main :=
  confined_execute fun _ _ _ _ _ _ _ => trivial

/-- A storage stays like it was. -/
theorem execute_alike (hopens : s.pool.Opens) (q : Query) (main : Option Entity) :
    Alike s (s.execute Store.handler q main).2 :=
  (s.confined_everywhere q main).alike s (.refl hopens)

/-- **What a query comes to** depends on the settings of the storage, on whether it has handles
and on the trees, and on nothing else that queries leave behind. -/
theorem execute_same (hs : Alike s s') (htrees : s.store.trees = s'.store.trees) (q : Query)
    (main : Option Entity) :
    (s.execute Store.handler q main).1 = (s'.execute Store.handler q main).1 ∧
      (s.execute Store.handler q main).2.store.trees =
        (s'.execute Store.handler q main).2.store.trees ∧
      Alike (s.execute Store.handler q main).2 (s'.execute Store.handler q main).2 := by
  obtain ⟨hresult, hafter⟩ := (s.confined_everywhere q main).same (.refl hs.opens) hs htrees
  exact ⟨hresult, hafter,
    (execute_alike hs.opens q main).symm.trans (hs.trans (execute_alike hs.opens' q main))⟩

end Storage

end KeyedRelations
