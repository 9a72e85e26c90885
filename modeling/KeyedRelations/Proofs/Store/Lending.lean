import Mathlib
import KeyedRelations.Proofs.Store.Pool
import KeyedRelations.Proofs.Store.Stepping

/-!
# Handles lent to many clients

Any number of clients ask one pool for handles, and each of their steps happens at one go.  A
client that asks takes an idle handle.  If there is none it reserves a place and opens a new
one, which may fail and then gives the place up.  If there is no place either it waits, and
looks again or gives up.  Handles that are out come back in any order, and the idle ones may be
dropped at any time.

Taking an idle handle does not look at the limit, and a place is reserved before the handle is
there.  So the limit holds by what every step keeps (`Lending.Booked`): the places that are
taken are those of the handles that are out and of the handles being opened, and there is room
for the idle handles beside them.  What a request has changed by steps of its own is the place
that it holds while it opens (`Lending.Run.net_eq`), and nothing when it has failed.
-/

namespace KeyedRelations

namespace Lending

/-- Where a client stands that may want a handle. -/
inductive Stage where
  /-- It asks for nothing. -/
  | settled
  /-- It is about to look into the pool. -/
  | asking
  /-- It waits for a handle to come back. -/
  | waiting
  /-- It has a place and opens a new handle. -/
  | opening
  deriving DecidableEq

/-- How many places a request holds before there is a handle. -/
def Stage.places : Stage → Nat
  | .opening => 1
  | .settled | .asking | .waiting => 0

end Lending

/-- A pool, the clients that share it, and the handles that they have out. -/
structure Lending (ι : Type) where
  pool : Pool
  stages : ι → Lending.Stage
  out : List HandleId

namespace Lending

/-! ### Steps -/

/-- What can happen to a pool at one go. -/
inductive Act (ι : Type) where
  /-- A client begins to ask. -/
  | ask (i : ι)
  /-- It takes an idle handle. -/
  | take (i : ι)
  /-- It reserves a place for a new one. -/
  | reserve (i : ι)
  /-- There is neither, and it waits. -/
  | wait (i : ι)
  /-- It looks again. -/
  | wake (i : ι)
  /-- It has waited too long, and its request fails. -/
  | giveUp (i : ι)
  /-- Its new handle is open. -/
  | opened (i : ι)
  /-- Its new handle could not be opened: it gives the place up, and its request fails. -/
  | refused (i : ι)
  /-- A handle that is out comes back. -/
  | giveBack (handle : HandleId)
  /-- The idle handles are dropped. -/
  | clear

variable {ι : Type}

/-- The client whose request goes on. -/
def Act.client? : Act ι → Option ι
  | ask i | take i | reserve i | wait i | wake i | giveUp i | opened i | refused i => some i
  | giveBack _ | clear => none

/-- The client whose request begins. -/
def Act.asks? : Act ι → Option ι
  | ask i => some i
  | _ => none

/-- The client whose request fails. -/
def Act.fails? : Act ι → Option ι
  | giveUp i | refused i => some i
  | _ => none

/-- Whether a place is given back. -/
def Act.givesBack : Act ι → Bool
  | giveBack _ | refused _ => true
  | _ => false

/-- Nobody has asked for a handle yet. -/
def start (ι : Type) (config : PoolConfig) (opening : Nat → Except StoreError Unit) :
    Lending ι :=
  ⟨.new config opening, fun _ => .settled, []⟩

section Clients

variable [DecidableEq ι]

/-- One client has got to another place, with the pool and the handles that are out then. -/
def stands (w : Lending ι) (i : ι) (stage : Stage) (pool : Pool) (out : List HandleId) :
    Lending ι :=
  ⟨pool, Function.update w.stages i stage, out⟩

/-- What happens at one go. -/
inductive Step (w : Lending ι) : Act ι → Lending ι → Prop
  | ask {i : ι} (hi : w.stages i = .settled) :
      Step w (.ask i) (w.stands i .asking w.pool w.out)
  | take {i : ι} {handle : HandleId} {pool : Pool} (hi : w.stages i = .asking)
      (htake : w.pool.takeIdle? = some (handle, pool)) :
      Step w (.take i) (w.stands i .settled pool (handle :: w.out))
  | reserve {i : ι} {pool : Pool} (hi : w.stages i = .asking)
      (hidle : w.pool.takeIdle? = none) (hplace : w.pool.reserve? = some pool) :
      Step w (.reserve i) (w.stands i .opening pool w.out)
  | wait {i : ι} (hi : w.stages i = .asking) (hidle : w.pool.takeIdle? = none)
      (hplace : w.pool.reserve? = none) : Step w (.wait i) (w.stands i .waiting w.pool w.out)
  | wake {i : ι} (hi : w.stages i = .waiting) :
      Step w (.wake i) (w.stands i .asking w.pool w.out)
  | giveUp {i : ι} (hi : w.stages i = .waiting) :
      Step w (.giveUp i) (w.stands i .settled w.pool w.out)
  | opened {i : ι} {handle : HandleId} {pool : Pool} (hi : w.stages i = .opening)
      (hopen : w.pool.openHandle = (.ok handle, pool)) :
      Step w (.opened i) (w.stands i .settled pool (handle :: w.out))
  | refused {i : ι} {e : StoreError} {pool : Pool} (hi : w.stages i = .opening)
      (hopen : w.pool.openHandle = (.error e, pool)) :
      Step w (.refused i) (w.stands i .settled pool.forfeit w.out)
  | giveBack {handle : HandleId} (hout : handle ∈ w.out) :
      Step w (.giveBack handle) ⟨w.pool.release handle, w.stages, w.out.erase handle⟩
  | clear : Step w .clear ⟨w.pool.clearIdle.2, w.stages, w.out⟩

end Clients

variable {w w' : Lending ι} {act : Act ι} {i : ι}

/-- What happens to a pool: by how much the number of idle handles and the number of places that
are taken go up. -/
def change (w w' : Lending ι) : Int × Int :=
  (w'.pool.idle.length - w.pool.idle.length, w'.pool.checkedOut - w.pool.checkedOut)

section Places

variable [Fintype ι]

/-! ### Places -/

/-- How many handles are being opened. -/
def openings (w : Lending ι) : Nat :=
  (Finset.univ.filter fun i => w.stages i = .opening).card

/-- The handles being opened are the places that requests hold. -/
theorem openings_eq (w : Lending ι) : w.openings = ∑ i, (w.stages i).places := by
  rw [openings, Finset.card_filter]
  refine Finset.sum_congr rfl fun i _ => ?_
  cases w.stages i <;> rfl

/-- The books of a pool. -/
structure Booked (w : Lending ι) : Prop where
  /-- There is room for the idle handles beside the places that are taken. -/
  within : w.pool.idle.length + w.pool.checkedOut ≤ w.pool.config.maxHandles
  /-- A place is taken for every handle that is out or being opened, and for nothing else. -/
  accounted : w.pool.checkedOut = w.out.length + w.openings

theorem booked_start (config : PoolConfig) (opening : Nat → Except StoreError Unit) :
    Booked (start ι config opening) := by
  constructor
  · exact Nat.zero_le _
  · simp [start, Pool.new, openings]

/-- A place is taken while a client opens a handle. -/
theorem Booked.place_of_opening (h : w.Booked) (hi : w.stages i = .opening) :
    0 < w.pool.checkedOut := by
  have hopening : 0 < w.openings := Finset.card_pos.mpr ⟨i, by simp [hi]⟩
  have haccounted := h.accounted
  omega

variable [DecidableEq ι]

theorem openings_stands (w : Lending ι) (i : ι) (stage : Stage) (pool : Pool)
    (out : List HandleId) :
    (w.stands i stage pool out).openings + (w.stages i).places =
      w.openings + stage.places := by
  have hplaces : ∀ j, (Function.update w.stages i stage j).places =
      Function.update (fun j => (w.stages j).places) i stage.places j :=
    fun j => Function.apply_update (fun _ => Stage.places) w.stages i stage j
  rw [openings_eq, openings_eq, stands]
  simp only [hplaces]
  exact sum_update_add (fun j => (w.stages j).places) i stage.places

/-- The books stay right if the pool has taken as many places more as there are handles and
openings more. -/
theorem Booked.stands (h : w.Booked) {stage : Stage} {pool : Pool} {out : List HandleId}
    (hconfig : pool.config = w.pool.config)
    (hwithin : pool.idle.length + pool.checkedOut ≤ w.pool.config.maxHandles)
    (hplaces : pool.checkedOut + w.out.length + (w.stages i).places =
      w.pool.checkedOut + out.length + stage.places) :
    (w.stands i stage pool out).Booked := by
  have haccounted := h.accounted
  have hopenings := w.openings_stands i stage pool out
  constructor
  · rw [← hconfig] at hwithin
    exact hwithin
  · change pool.checkedOut = out.length + _
    omega

/-- **One step keeps the books.** -/
theorem Booked.step (h : w.Booked) (hstep : w.Step act w') : w'.Booked := by
  have hwithin := h.within
  have haccounted := h.accounted
  cases hstep with
  | ask hi | wait hi | wake hi | giveUp hi =>
      exact h.stands rfl hwithin (by rw [hi]; rfl)
  | take hi htake =>
      obtain ⟨hconfig, hidle, hout⟩ := Pool.takeIdle?_eq_some htake
      refine h.stands hconfig (by omega) ?_
      rw [hi, hout, List.length_cons]
      simp only [Stage.places]
      omega
  | reserve hi hnone hplace =>
      obtain ⟨hroom, rfl⟩ := Pool.reserve?_eq_some hplace
      have hidle : w.pool.idle.length = 0 := by
        rw [Pool.takeIdle?_eq_none_iff.mp hnone, List.length_nil]
      refine h.stands rfl ?_ ?_
      · change w.pool.idle.length + (w.pool.checkedOut + 1) ≤ _
        omega
      · rw [hi]
        simp only [Stage.places]
        omega
  | opened hi hopen =>
      obtain rfl := Pool.openHandle_eq hopen
      refine h.stands rfl hwithin ?_
      rw [hi, List.length_cons]
      simp only [Stage.places]
      omega
  | refused hi hopen =>
      obtain rfl := Pool.openHandle_eq hopen
      have hplace := h.place_of_opening hi
      refine h.stands rfl ?_ ?_
      · change w.pool.idle.length + (w.pool.checkedOut - 1) ≤ _
        omega
      · rw [hi]
        simp only [Stage.places, Pool.forfeit]
        omega
  | @giveBack handle hout =>
      have hlength := List.length_erase_of_mem hout
      have hpos := List.length_pos_of_mem hout
      constructor
      · change (handle :: w.pool.idle).length + (w.pool.checkedOut - 1) ≤ _
        rw [List.length_cons]
        change _ ≤ w.pool.config.maxHandles
        omega
      · change w.pool.checkedOut - 1 = (w.out.erase handle).length + w.openings
        omega
  | clear =>
      constructor
      · change 0 + w.pool.checkedOut ≤ w.pool.config.maxHandles
        omega
      · exact haccounted

/-- A place that is given back was taken. -/
theorem Booked.givesBack (h : w.Booked) (hstep : w.Step act w') (hback : act.givesBack = true) :
    w'.pool.checkedOut + 1 = w.pool.checkedOut := by
  have haccounted := h.accounted
  cases hstep with
  | refused hi hopen =>
      obtain rfl := Pool.openHandle_eq hopen
      have hplace := h.place_of_opening hi
      change w.pool.checkedOut - 1 + 1 = w.pool.checkedOut
      omega
  | giveBack hout =>
      have hpos := List.length_pos_of_mem hout
      change w.pool.checkedOut - 1 + 1 = w.pool.checkedOut
      omega
  | ask | take | reserve | wait | wake | giveUp | opened | clear => cases hback

/-! ### Requests -/

/-- A request that does not end with a handle changes nothing but the place that it holds. -/
theorem Booked.change_of_client (h : w.Booked) (hstep : w.Step act w')
    (hclient : act.client? = some i)
    (hgoes : w'.stages i ≠ .settled ∨ act.fails? = some i) :
    w.change w' = (0, ((w'.stages i).places : Int) - (w.stages i).places) := by
  cases hstep with
  | ask hi | wait hi | wake hi | giveUp hi =>
      obtain rfl := Option.some.inj hclient
      rw [hi]
      simp [change, Lending.stands, Stage.places]
  | take hi htake | opened hi hopen =>
      obtain rfl := Option.some.inj hclient
      rcases hgoes with hgoes | hfails
      · simp [Lending.stands] at hgoes
      · cases hfails
  | reserve hi hnone hplace =>
      obtain rfl := Option.some.inj hclient
      obtain ⟨-, rfl⟩ := Pool.reserve?_eq_some hplace
      rw [hi]
      simp [change, Lending.stands, Stage.places]
  | refused hi hopen =>
      obtain rfl := Option.some.inj hclient
      obtain rfl := Pool.openHandle_eq hopen
      have hplace := h.place_of_opening hi
      rw [hi]
      simp only [change, Lending.stands, Stage.places, Pool.forfeit, Function.update_self]
      simp only [sub_self, Prod.mk.injEq, true_and]
      omega
  | giveBack | clear => cases hclient

omit [Fintype ι] in
/-- A request that goes on has begun. -/
theorem Step.begun (hstep : w.Step act w') (hclient : act.client? = some i)
    (hasks : act.asks? ≠ some i) : w.stages i ≠ .settled := by
  cases hstep with
  | ask => exact (hasks hclient).elim
  | take hi | reserve hi | wait hi | wake hi | giveUp hi | opened hi | refused hi =>
      obtain rfl := Option.some.inj hclient
      rw [hi]
      exact Stage.noConfusion
  | giveBack | clear => cases hclient

omit [Fintype ι] in
/-- A request that fails is settled, and it is not one that begins. -/
theorem Step.of_fails (hstep : w.Step act w') (hfails : act.fails? = some i) :
    act.client? = some i ∧ act.asks? ≠ some i ∧ w'.stages i = .settled := by
  cases hstep with
  | giveUp | refused =>
      obtain rfl := Option.some.inj hfails
      exact ⟨rfl, by simp [Act.asks?], Function.update_self ..⟩
  | ask | take | reserve | wait | wake | opened | giveBack | clear => cases hfails

omit [Fintype ι] in
/-- The other requests stay where they are. -/
theorem Step.stage_of_ne (hstep : w.Step act w') (hclient : act.client? ≠ some i) :
    w'.stages i = w.stages i := by
  cases hstep with
  | giveBack | clear => rfl
  | @ask j | @take j | @reserve j | @wait j | @wake j | @giveUp j | @opened j | @refused j =>
      have hne : i ≠ j := fun hij => hclient (congrArg some hij.symm)
      exact Function.update_of_ne hne _ _

end Places

/-! ### Runs -/

/-- What has happened to a pool, the latest first, with what it has changed. -/
abbrev History (ι : Type) := List (Act ι × Int × Int)

variable [DecidableEq ι]

/-- A run from one state to another. -/
inductive Run (w : Lending ι) : History ι → Lending ι → Prop
  | refl : Run w [] w
  | tail {history : History ι} {w' w'' : Lending ι} {act : Act ι} (hrun : Run w history w')
      (hstep : Step w' act w'') : Run w ((act, w'.change w'') :: history) w''

theorem stands_stands (w : Lending ι) (i : ι) (stage stage' : Stage) (pool pool' : Pool)
    (out out' : List HandleId) :
    (w.stands i stage pool out).stands i stage' pool' out' = w.stands i stage' pool' out' := by
  simp [stands]

/-- While no other client takes a step, a client that asks comes to what the pool's own
`acquire` does. -/
theorem exists_run_acquire (hi : w.stages i = .settled) :
    ∃ history out, Run w history (w.stands i .settled w.pool.acquire.2 out) ∧
      out = (w.pool.acquire.1.toOption.toList ++ w.out) := by
  have hask : Run w _ (w.stands i .asking w.pool w.out) := .tail .refl (.ask hi)
  have hasking : (w.stands i .asking w.pool w.out).stages i = .asking := Function.update_self ..
  unfold Pool.acquire
  cases hidle : w.pool.takeIdle? with
  | some taken =>
      obtain ⟨handle, pool⟩ := taken
      have hrun := hask.tail (.take hasking hidle)
      rw [stands_stands] at hrun
      exact ⟨_, _, hrun, rfl⟩
  | none =>
      dsimp only
      cases hplace : w.pool.reserve? with
      | none =>
          have hwait := hask.tail (.wait hasking hidle hplace)
          have hrun := hwait.tail (.giveUp (Function.update_self ..))
          simp only [stands_stands] at hrun
          exact ⟨_, _, hrun, rfl⟩
      | some pool =>
          have hreserve := hask.tail (.reserve hasking hidle hplace)
          rw [stands_stands] at hreserve
          have hopening : (w.stands i .opening pool w.out).stages i = .opening :=
            Function.update_self ..
          dsimp only
          rcases hopen : pool.openHandle with ⟨e | handle, pool'⟩
          · have hrun := hreserve.tail (.refused hopening hopen)
            rw [stands_stands] at hrun
            exact ⟨_, _, hrun, rfl⟩
          · have hrun := hreserve.tail (.opened hopening hopen)
            rw [stands_stands] at hrun
            exact ⟨_, _, hrun, rfl⟩

/-! ### What requests change -/

/-- What the latest request of a client has changed so far by steps of its own. -/
def net (i : ι) (history : History ι) : Int × Int :=
  (((history.takeWhile fun e => e.1.asks? ≠ some i).filter fun e =>
    e.1.client? = some i).map (·.2)).sum

variable {e : Act ι × Int × Int} {history : History ι}

omit [DecidableEq ι] in
theorem Act.client?_of_asks? (h : act.asks? = some i) : act.client? = some i := by
  cases act with
  | ask => exact h
  | take | reserve | wait | wake | giveUp | opened | refused | giveBack | clear => cases h

theorem net_cons_of_asks (h : e.1.asks? = some i) : net i (e :: history) = 0 := by
  simp [net, h]

theorem net_cons_of_client (hasks : e.1.asks? ≠ some i) (hclient : e.1.client? = some i) :
    net i (e :: history) = e.2 + net i history := by
  simp [net, hasks, hclient]

theorem net_cons_of_ne (hclient : e.1.client? ≠ some i) :
    net i (e :: history) = net i history := by
  have hasks : e.1.asks? ≠ some i := mt Act.client?_of_asks? hclient
  simp [net, hasks, hclient]

variable {limits : PoolConfig} {opening : Nat → Except StoreError Unit}

/-- The limits of a pool are those that it began with. -/
theorem Run.config (hrun : Run (start ι limits opening) history w) :
    w.pool.config = limits := by
  induction hrun with
  | refl => rfl
  | tail hrun hstep ih =>
      rw [← ih]
      cases hstep with
      | ask | wait | wake | giveUp | giveBack | clear => rfl
      | take hi htake => exact (Pool.takeIdle?_eq_some htake).1
      | reserve hi hnone hplace =>
          obtain ⟨-, rfl⟩ := Pool.reserve?_eq_some hplace
          rfl
      | opened hi hopen | refused hi hopen =>
          obtain rfl := Pool.openHandle_eq hopen
          rfl

variable [Fintype ι]

/-- The books are right at every moment of a run. -/
theorem Run.booked (hrun : Run (start ι limits opening) history w) : w.Booked := by
  induction hrun with
  | refl => exact booked_start limits opening
  | tail _ hstep ih => exact ih.step hstep

/-- A request under way has changed nothing but the place that it holds. -/
theorem Run.net_eq (hrun : Run (start ι limits opening) history w)
    (hi : w.stages i ≠ .settled) : net i history = (0, ((w.stages i).places : Int)) := by
  induction hrun with
  | refl => exact (hi rfl).elim
  | @tail history w' w'' act hrun hstep ih =>
      by_cases hclient : act.client? = some i
      · by_cases hasks : act.asks? = some i
        · rw [net_cons_of_asks hasks]
          cases hstep with
          | @ask j hj =>
              obtain rfl := Option.some.inj hclient
              simp only [stands, Function.update_self, Stage.places]
              rfl
          | take | reserve | wait | wake | giveUp | opened | refused | giveBack | clear =>
              cases hasks
        · have hbegun := hstep.begun hclient hasks
          have hchange := hrun.booked.change_of_client hstep hclient (Or.inl hi)
          rw [net_cons_of_client hasks hclient, ih hbegun, hchange]
          simp
      · rw [hstep.stage_of_ne hclient] at hi ⊢
        rw [net_cons_of_ne hclient]
        exact ih hi

/-- **The accounts of a pool are right.**  Any number of clients ask a pool that began empty,
and handles come back and are dropped, all in any order.  At every moment the idle handles and
the places that are taken are no more than handles may be out, and the places that are taken are
the handles that are out and those being opened.  So a place that is given back was taken, and a
request that fails, by giving up or because its handle cannot be opened, has changed nothing in
the end. -/
theorem run_accounts (hrun : Run (start ι limits opening) history w) :
    w.pool.stats.idle + w.pool.stats.checkedOut ≤ limits.maxHandles ∧
      w.pool.stats.checkedOut = w.out.length + w.openings ∧
      ∀ act w', w.Step act w' →
        (act.givesBack = true → w'.pool.stats.checkedOut + 1 = w.pool.stats.checkedOut) ∧
        ∀ i, act.fails? = some i → net i ((act, w.change w') :: history) = 0 := by
  have hbooked := hrun.booked
  refine ⟨?_, hbooked.accounted, fun act w' hstep => ⟨hbooked.givesBack hstep, ?_⟩⟩
  · rw [← hrun.config]
    exact hbooked.within
  · intro i hfails
    obtain ⟨hclient, hasks, hsettled⟩ := hstep.of_fails hfails
    have hunderway := hrun.net_eq (hstep.begun hclient hasks)
    have hchange := hbooked.change_of_client hstep hclient (Or.inr hfails)
    rw [net_cons_of_client hasks hclient, hunderway, hchange, hsettled]
    simp [Stage.places]

/-- A pool of one handle whose first attempt to open it fails. -/
def stumbling : Pool :=
  .new (.ofMaxHandles 1) fun attempt =>
    if attempt = 0 then .error (.unavailable "offline") else .ok ()

/-- Two clients without a handle. -/
def two (pool : Pool) (first second : Stage) : Lending Bool :=
  ⟨pool, fun i => if i then first else second, []⟩

theorem stands_first (pool pool' : Pool) (first first' second : Stage) :
    (two pool first second).stands true first' pool' [] = two pool' first' second := by
  simp only [stands, two, Lending.mk.injEq, true_and, and_true]
  funext i
  cases i <;> rfl

theorem stands_second (pool pool' : Pool) (first second second' : Stage) :
    (two pool first second).stands false second' pool' [] = two pool' first second' := by
  simp only [stands, two, Lending.mk.injEq, true_and, and_true]
  funext i
  cases i <;> rfl

/-- One client opens the only handle while the other waits. -/
def queued : Lending Bool := two { stumbling with checkedOut := 1 } .opening .waiting

theorem exists_run_queued :
    ∃ history, Run (start Bool stumbling.config stumbling.opening) history queued := by
  have hstart : start Bool stumbling.config stumbling.opening =
      two stumbling .settled .settled := by
    simp only [start, two, ite_self]
    rfl
  have hfirst := Step.ask (w := two stumbling .settled .settled) (i := true) rfl
  have hreserve := Step.reserve (w := two stumbling .asking .settled) (i := true) rfl rfl rfl
  have hsecond := Step.ask (w := two { stumbling with checkedOut := 1 } .opening .settled)
    (i := false) rfl
  have hwait := Step.wait (w := two { stumbling with checkedOut := 1 } .opening .asking)
    (i := false) rfl rfl rfl
  rw [hstart]
  exact ⟨_, (((Run.refl.tail (stands_first .. ▸ hfirst)).tail (stands_first .. ▸ hreserve)).tail
    (stands_second .. ▸ hsecond)).tail (stands_second .. ▸ hwait)⟩

theorem run_accounts_queued :
    ∃ history w', Run (start Bool stumbling.config stumbling.opening) history queued ∧
      queued.Step (.refused true) w' ∧
      w'.pool.stats.checkedOut + 1 = queued.pool.stats.checkedOut ∧
      net true ((.refused true, queued.change w') :: history) = 0 := by
  obtain ⟨history, hrun⟩ := exists_run_queued
  obtain ⟨-, -, hsteps⟩ := run_accounts hrun
  have hrefused := Step.refused (w := queued) (i := true) rfl rfl
  obtain ⟨hback, hnet⟩ := hsteps _ _ hrefused
  exact ⟨history, _, hrun, hrefused, hback rfl, hnet true rfl⟩

end Lending

end KeyedRelations
