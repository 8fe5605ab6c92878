import Xten.Scheduler.Conservation

/-!
# What one call of `autoLoadBalance` does

A call that no other thread interferes with. The search starts with the first queue as the
longest and the shortest, but with no index for either, so that nothing is moved where the
first queue is one of the two.
-/

namespace Xten.Scheduler.LocalQueues

open Std.Interleaving
open Relation (ReflTransGen)

/-- One step of a thread that runs alone, with what is shared. -/
def Goes (thread : Nat) (now later : Shared × Thread) : Prop :=
  exec thread now.1 now.2 .go = some later

/-- A call of `autoLoadBalance` from its beginning until it returns, with no other thread in
between. -/
def BalancesAlone (thread : Nat) (now : Thread) (before after : Shared) : Prop :=
  ∃ started, exec thread before now .autoLoadBalance = some started ∧
    ReflTransGen (Goes thread) started (after, now)

namespace Shared

variable (shared : Shared)

/-- `_queueSizes` are the lengths of the queues. -/
def Sized : Prop :=
  ∀ queue < shared.threadNum, shared.queueSizes queue = (shared.localQueues queue).length

/-- A queue that none is longer than. -/
def Longest (queue : Nat) : Prop :=
  queue < shared.threadNum ∧ ∀ other < shared.threadNum,
    (shared.localQueues other).length ≤ (shared.localQueues queue).length

/-- A queue that none is shorter than. -/
def Shortest (queue : Nat) : Prop :=
  queue < shared.threadNum ∧ ∀ other < shared.threadNum,
    (shared.localQueues queue).length ≤ (shared.localQueues other).length

/-- The longest queue has more than ten tasks more than the shortest. -/
def Uneven : Prop :=
  ∃ longest shortest, shared.Longest longest ∧ shared.Shortest shortest ∧
    (shared.localQueues shortest).length + 10 < (shared.localQueues longest).length

/-- How many tasks of a queue name no thread. -/
def unnamed (queue : Nat) : Nat :=
  (shared.localQueues queue).countP fun task => task.threadId = none

/-- The tasks of a queue that name a thread. -/
def named (queue : Nat) : List Task :=
  (shared.localQueues queue).filter fun task => task.threadId ≠ none

/-- The first queue is neither the longest nor the shortest. -/
def FirstBetween : Prop :=
  (∃ queue < shared.threadNum,
    (shared.localQueues 0).length < (shared.localQueues queue).length) ∧
  ∃ queue < shared.threadNum, (shared.localQueues queue).length < (shared.localQueues 0).length

end Shared

/-- Some tasks that name no thread have gone from one queue to another. -/
structure Moved (before after : Shared) (source target : Nat) (tasks : List Task) : Prop where
  unnamed : ∀ task ∈ tasks, task.threadId = none
  taken : (tasks ++ after.localQueues source).Perm (before.localQueues source)
  put : after.localQueues target = before.localQueues target ++ tasks
  others : ∀ queue, queue ≠ source → queue ≠ target →
    after.localQueues queue = before.localQueues queue

/-- What `autoLoadBalance` is to do. -/
structure Balances (before after : Shared) : Prop where
  moved : before.Uneven → ∃ longest shortest tasks, before.Longest longest ∧
    before.Shortest shortest ∧ tasks.length = min 5 (before.unnamed longest) ∧
    Moved before after longest shortest tasks
  still : ¬ before.Uneven → after = before
  tasks : (shelved after.localQueues before.threadNum).Perm
    (shelved before.localQueues before.threadNum)
  named : ∀ queue, after.named queue = before.named queue
  queueSizes : ∀ queue < before.threadNum,
    after.queueSizes queue = (after.localQueues queue).length

section Walk

variable {limit : Nat} {tasks : List Task}

/-- The walk goes on until it has enough, or is through the queue. -/
theorem length_walk : (walk limit tasks).1.length =
    min limit (tasks.countP fun task => task.threadId = none) := by
  fun_induction walk limit tasks with
  | case1 => simp
  | case2 => simp
  | case3 limit task tasks named ih => simp [ih, named, Nat.add_min_add_right]
  | case4 limit task tasks named ih => simp [ih, named]

/-- The walk leaves the tasks that name a thread where they are. -/
theorem filter_walk : ((walk limit tasks).2.filter fun task => task.threadId ≠ none) =
    tasks.filter fun task => task.threadId ≠ none := by
  fun_induction walk limit tasks with
  | case1 | case2 => rfl
  | case3 limit task tasks named ih =>
      rw [List.filter_cons_of_neg (by simp [named])]
      exact ih
  | case4 limit task tasks named ih =>
      simp only [Prod.map_snd, List.filter_cons, ih]

end Walk

section Search

variable {thread index : Nat} {shared : Shared} {maxQueue minQueue : Option Nat}
  {maxTask minTask : Int} {after : After}

/-- What the search of `autoLoadBalance` has found among the queues below an index. Where an
index is missing, the first queue has as many tasks as any, or as few. -/
structure Measured (shared : Shared) (index : Nat) (maxQueue minQueue : Option Nat)
    (maxTask minTask : Int) : Prop where
  most : ∀ queue < index, shared.queueSizes queue ≤ maxTask
  fewest : ∀ queue < index, minTask ≤ shared.queueSizes queue
  max : ∀ queue ∈ maxQueue, queue < shared.threadNum ∧ shared.queueSizes queue = maxTask
  min : ∀ queue ∈ minQueue, queue < shared.threadNum ∧ shared.queueSizes queue = minTask
  maxFirst : maxQueue = none ↔ maxTask = shared.queueSizes 0
  minFirst : minQueue = none ↔ minTask = shared.queueSizes 0

theorem Measured.start (shared : Shared) :
    Measured shared 1 none none (shared.queueSizes 0) (shared.queueSizes 0) where
  most := fun queue first => by rw [Nat.lt_one_iff.mp first]
  fewest := fun queue first => by rw [Nat.lt_one_iff.mp first]
  max := nofun
  min := nofun
  maxFirst := iff_of_true rfl rfl
  minFirst := iff_of_true rfl rfl

/-- One round of the search. -/
theorem Measured.next (measured : Measured shared index maxQueue minQueue maxTask minTask)
    (positive : 0 < index) (inside : index < shared.threadNum) (thread : Nat) (after : After) :
    ∃ maxQueue' minQueue' maxTask' minTask',
      Goes thread (shared, .measuring index maxQueue minQueue maxTask minTask after)
        (shared, .measuring (index + 1) maxQueue' minQueue' maxTask' minTask' after) ∧
      Measured shared (index + 1) maxQueue' minQueue' maxTask' minTask' := by
  have first := measured.most 0 positive
  have last := measured.fewest 0 positive
  by_cases more : maxTask < shared.queueSizes index
  · refine ⟨some index, minQueue, shared.queueSizes index, minTask, ?_, ?_⟩
    · simp [Goes, exec, inside, more]
    · refine ⟨?_, ?_, ?_, measured.min, iff_of_false nofun (by omega), measured.minFirst⟩
      · intro queue below
        obtain below | rfl := Nat.lt_succ_iff_lt_or_eq.mp below
        · exact (measured.most queue below).trans more.le
        · exact le_rfl
      · intro queue below
        obtain below | rfl := Nat.lt_succ_iff_lt_or_eq.mp below
        · exact measured.fewest queue below
        · omega
      · rintro _ ⟨⟩
        exact ⟨inside, rfl⟩
  · by_cases less : shared.queueSizes index < minTask
    · refine ⟨maxQueue, some index, maxTask, shared.queueSizes index, ?_, ?_⟩
      · simp [Goes, exec, inside, more, less]
      · refine ⟨?_, ?_, measured.max, ?_, measured.maxFirst, iff_of_false nofun (by omega)⟩
        · intro queue below
          obtain below | rfl := Nat.lt_succ_iff_lt_or_eq.mp below
          · exact measured.most queue below
          · exact not_lt.mp more
        · intro queue below
          obtain below | rfl := Nat.lt_succ_iff_lt_or_eq.mp below
          · exact less.le.trans (measured.fewest queue below)
          · exact le_rfl
        · rintro _ ⟨⟩
          exact ⟨inside, rfl⟩
    · refine ⟨maxQueue, minQueue, maxTask, minTask, ?_, ?_⟩
      · simp [Goes, exec, inside, more, less]
      · refine ⟨?_, ?_, measured.max, measured.min, measured.maxFirst, measured.minFirst⟩
        all_goals
          intro queue below
          obtain below | rfl := Nat.lt_succ_iff_lt_or_eq.mp below
        · exact measured.most queue below
        · exact not_lt.mp more
        · exact measured.fewest queue below
        · exact not_lt.mp less

/-- The search goes through all the queues. -/
theorem Measured.finish (measured : Measured shared index maxQueue minQueue maxTask minTask)
    (positive : 0 < index) (inside : index ≤ shared.threadNum) (thread : Nat) (after : After) :
    ∃ maxQueue' minQueue' maxTask' minTask', ReflTransGen (Goes thread)
        (shared, .measuring index maxQueue minQueue maxTask minTask after)
        (shared, .measuring shared.threadNum maxQueue' minQueue' maxTask' minTask' after) ∧
      Measured shared shared.threadNum maxQueue' minQueue' maxTask' minTask' := by
  obtain ⟨gap, count⟩ := Nat.exists_eq_add_of_le inside
  induction gap generalizing index maxQueue minQueue maxTask minTask with
  | zero =>
      obtain rfl : shared.threadNum = index := count
      exact ⟨_, _, _, _, .refl, measured⟩
  | succ gap ih =>
      obtain ⟨_, _, _, _, goes, next⟩ := measured.next positive (by omega) thread after
      obtain ⟨_, _, _, _, rest, done⟩ := ih next (Nat.succ_pos _) (by omega) (by omega)
      exact ⟨_, _, _, _, rest.head goes, done⟩

theorem Measured.longest {queue : Nat}
    (measured : Measured shared shared.threadNum maxQueue minQueue maxTask minTask)
    (sized : shared.Sized) (inside : queue < shared.threadNum)
    (most : shared.queueSizes queue = maxTask) : shared.Longest queue := by
  refine ⟨inside, fun other within => ?_⟩
  have bound := measured.most other within
  rw [← most, sized other within, sized queue inside] at bound
  exact Int.ofNat_le.mp bound

theorem Measured.shortest {queue : Nat}
    (measured : Measured shared shared.threadNum maxQueue minQueue maxTask minTask)
    (sized : shared.Sized) (inside : queue < shared.threadNum)
    (fewest : shared.queueSizes queue = minTask) : shared.Shortest queue := by
  refine ⟨inside, fun other within => ?_⟩
  have bound := measured.fewest other within
  rw [← fewest, sized other within, sized queue inside] at bound
  exact Int.ofNat_le.mp bound

/-- The search has found how long the longest queue and the shortest are. -/
theorem Measured.uneven_iff
    (measured : Measured shared shared.threadNum maxQueue minQueue maxTask minTask)
    (some : 0 < shared.threadNum) (sized : shared.Sized) :
    shared.Uneven ↔ 10 < maxTask - minTask := by
  constructor
  · rintro ⟨longest, shortest, ⟨first, -⟩, ⟨second, -⟩, apart⟩
    have most := measured.most longest first
    have fewest := measured.fewest shortest second
    rw [sized longest first] at most
    rw [sized shortest second] at fewest
    omega
  · intro apart
    obtain ⟨longest, first, most⟩ : ∃ queue < shared.threadNum,
        shared.queueSizes queue = maxTask := by
      cases found : maxQueue with
      | none => exact ⟨0, some, (measured.maxFirst.mp found).symm⟩
      | some queue => exact ⟨queue, measured.max queue found⟩
    obtain ⟨shortest, second, fewest⟩ : ∃ queue < shared.threadNum,
        shared.queueSizes queue = minTask := by
      cases found : minQueue with
      | none => exact ⟨0, some, (measured.minFirst.mp found).symm⟩
      | some queue => exact ⟨queue, measured.min queue found⟩
    refine ⟨longest, shortest, measured.longest sized first most,
      measured.shortest sized second fewest, ?_⟩
    rw [sized longest first] at most
    rw [sized shortest second] at fewest
    omega

/-- An index is missing where the first queue is the longest, or the shortest. -/
theorem Measured.firstBetween_iff
    (measured : Measured shared shared.threadNum maxQueue minQueue maxTask minTask)
    (some : 0 < shared.threadNum) (sized : shared.Sized) :
    shared.FirstBetween ↔ maxQueue.isSome ∧ minQueue.isSome := by
  have first := sized 0 some
  apply and_congr
  · constructor
    · rintro ⟨queue, inside, longer⟩
      rw [Option.isSome_iff_ne_none, ne_eq, measured.maxFirst]
      have most := measured.most queue inside
      rw [sized queue inside] at most
      omega
    · intro found
      obtain ⟨queue, isQueue⟩ := Option.isSome_iff_exists.mp found
      obtain ⟨inside, most⟩ := measured.max queue isQueue
      refine ⟨queue, inside, ?_⟩
      have apart : maxTask ≠ shared.queueSizes 0 := fun same => by
        cases isQueue.symm.trans (measured.maxFirst.mpr same)
      have bound := measured.most 0 some
      rw [sized queue inside] at most
      omega
  · constructor
    · rintro ⟨queue, inside, shorter⟩
      rw [Option.isSome_iff_ne_none, ne_eq, measured.minFirst]
      have fewest := measured.fewest queue inside
      rw [sized queue inside] at fewest
      omega
    · intro found
      obtain ⟨queue, isQueue⟩ := Option.isSome_iff_exists.mp found
      obtain ⟨inside, fewest⟩ := measured.min queue isQueue
      refine ⟨queue, inside, ?_⟩
      have apart : minTask ≠ shared.queueSizes 0 := fun same => by
        cases isQueue.symm.trans (measured.minFirst.mpr same)
      have bound := measured.fewest 0 some
      rw [sized queue inside] at fewest
      omega

end Search

section Move

variable {shared : Shared} {source target : Nat} {tasks rest : List Task}

/-- The queues after the two sections of `autoLoadBalance`. -/
def Shared.move (shared : Shared) (source target : Nat) (tasks rest : List Task) : Shared :=
  (shared.store source rest (-tasks.length)).store target
    ((shared.store source rest (-tasks.length)).localQueues target ++ tasks) tasks.length

variable (apart : source ≠ target)
  (found : walk 5 (shared.localQueues source).reverse = (tasks, rest))

theorem move_source (apart : source ≠ target) :
    (shared.move source target tasks rest).localQueues source = rest := by
  simp [Shared.move, Shared.store, Function.update_of_ne apart]

theorem move_target (apart : source ≠ target) :
    (shared.move source target tasks rest).localQueues target =
      shared.localQueues target ++ tasks := by
  simp [Shared.move, Shared.store, Function.update_of_ne apart.symm]

theorem move_other {queue : Nat} (notSource : queue ≠ source) (notTarget : queue ≠ target) :
    (shared.move source target tasks rest).localQueues queue = shared.localQueues queue := by
  simp [Shared.move, Shared.store, Function.update_of_ne notSource, Function.update_of_ne notTarget]

theorem moved_move (apart : source ≠ target)
    (found : walk 5 (shared.localQueues source).reverse = (tasks, rest)) :
    Moved shared (shared.move source target tasks rest.reverse) source target tasks where
  unnamed := fun task member => by
    have unnamed := @walk_unnamed 5 (shared.localQueues source).reverse task
    rw [found] at unnamed
    exact unnamed member
  taken := by
    rw [move_source apart]
    exact walk_queue found
  put := move_target apart
  others := fun _ => move_other

theorem Shared.Sized.move (sized : shared.Sized) (apart : source ≠ target)
    (inside : source < shared.threadNum)
    (found : walk 5 (shared.localQueues source).reverse = (tasks, rest)) :
    (shared.move source target tasks rest.reverse).Sized := by
  intro queue within
  have was := sized queue within
  have length := (walk_queue found).length_eq
  rw [List.length_append, List.length_reverse] at length
  by_cases isSource : queue = source
  · subst isSource
    rw [move_source apart]
    simp only [Shared.move, Shared.store, Function.update_of_ne apart, Function.update_self, was,
      List.length_reverse]
    omega
  · by_cases isTarget : queue = target
    · subst isTarget
      rw [move_target apart]
      simp only [Shared.move, Shared.store, Function.update_of_ne apart.symm, Function.update_self,
        was, List.length_append]
      omega
    · rw [move_other isSource isTarget]
      simp only [Shared.move, Shared.store, Function.update_of_ne isSource,
        Function.update_of_ne isTarget, was]

/-- The two sections move the tasks that they are to move, and nothing else. -/
theorem balances_move (sized : shared.Sized)
    (longest : shared.Longest source) (shortest : shared.Shortest target)
    (uneven : (shared.localQueues target).length + 10 < (shared.localQueues source).length)
    (found : walk 5 (shared.localQueues source).reverse = (tasks, rest)) :
    Balances shared (shared.move source target tasks rest.reverse) := by
  have apart : source ≠ target := by
    rintro rfl
    omega
  refine ⟨fun _ => ?_, fun even => ?_, ?_, fun queue => ?_, ?_⟩
  · refine ⟨source, target, tasks, longest, shortest, ?_, moved_move apart found⟩
    have length := @length_walk 5 (shared.localQueues source).reverse
    rw [found, List.countP_reverse] at length
    exact length
  · exact absurd ⟨source, target, longest, shortest, uneven⟩ even
  · have taken : (tasks ++ shelved (Function.update shared.localQueues source rest.reverse)
        shared.threadNum).Perm (shelved shared.localQueues shared.threadNum) := by
      have perm := walk_queue found
      rw [← List.nil_append (shared.localQueues source)] at perm
      exact shelved_update longest.1 perm
    refine List.Perm.trans ?_ taken
    rw [← List.nil_append (shelved _ _)]
    refine shelved_update shortest.1 ?_
    rw [List.nil_append]
    exact List.perm_append_comm
  · rw [Shared.named, Shared.named]
    by_cases isSource : queue = source
    · have left := @filter_walk 5 (shared.localQueues source).reverse
      rw [found, List.filter_reverse] at left
      rw [isSource, move_source apart, List.filter_reverse, left, List.reverse_reverse]
    · by_cases isTarget : queue = target
      · have none : (tasks.filter fun task => task.threadId ≠ none) = [] := by
          rw [List.filter_eq_nil_iff]
          intro task member
          simp [(moved_move apart found).unnamed task member]
        rw [isTarget, move_target apart, List.filter_append, none, List.append_nil]
      · rw [move_other isSource isTarget]
  · exact sized.move apart longest.1 found

end Move

section Call

variable {thread : Nat} {shared : Shared} {now : Thread} {after : After}

/-- The call has nothing to move, or finds what it has to move. -/
def Shared.Balanceable (shared : Shared) : Prop :=
  ¬ shared.Uneven ∨ shared.FirstBetween ∨
    ∃ longest, shared.Longest longest ∧ shared.unnamed longest = 0

/-- A call that changes nothing. -/
theorem balances_self (sized : shared.Sized) : Balances shared shared ↔
    ¬ shared.Uneven ∨ ∃ longest, shared.Longest longest ∧ shared.unnamed longest = 0 := by
  constructor
  · intro balances
    refine or_iff_not_imp_left.mpr fun uneven => ?_
    obtain ⟨longest, shortest, tasks, isLongest, -, length, moved⟩ :=
      balances.moved (not_not.mp uneven)
    have none := moved.taken.length_eq
    rw [List.length_append, Nat.add_eq_right] at none
    exact ⟨longest, isLongest, by omega⟩
  · intro done
    refine ⟨fun uneven => ?_, fun _ => rfl, .refl _, fun _ => rfl, sized⟩
    obtain ⟨longest, isLongest, none⟩ := done.resolve_left (not_not.mpr uneven)
    obtain ⟨-, shortest, -, isShortest, -⟩ := uneven
    refine ⟨longest, shortest, [], isLongest, isShortest, by simp [none], nofun, .refl _, ?_,
      fun _ _ _ => rfl⟩
    rw [List.append_nil]

/-- A thread that has returned from a call takes no step of its own. -/
theorem Calls.not_goes (calls : Calls now after) (later : Shared × Thread) :
    ¬ Goes thread (shared, now) later := by
  cases calls <;> exact nofun

/-- A call comes to one result only. -/
theorem BalancesAlone.unique {one other : Shared} (calls : Calls now after)
    (first : BalancesAlone thread now shared one) (second : BalancesAlone thread now shared other) :
    one = other := by
  obtain ⟨started, start, goes⟩ := first
  obtain ⟨again, restart, goes'⟩ := second
  cases start.symm.trans restart
  have determined : Relator.RightUnique (Goes thread) := fun _ _ _ left right =>
    Option.some_inj.mp (left.symm.trans right)
  have rest {before later : Shared} (moves : ReflTransGen (Goes thread) (before, now) (later, now)) :
      before = later := by
    obtain same | ⟨next, goes, -⟩ := moves.cases_head
    · exact congrArg Prod.fst same
    · exact absurd goes (calls.not_goes next)
  obtain onward | back := ReflTransGen.total_of_right_unique determined goes goes'
  · exact rest onward
  · exact (rest back).symm

theorem Calls.resume_eq (calls : Calls now after) : after.resume = now := by
  cases calls <;> rfl

/-- What a call comes to. -/
theorem exists_balancesAlone (calls : Calls now after) (some : 0 < shared.threadNum)
    (sized : shared.Sized) : ∃ later, BalancesAlone thread now shared later ∧
      (Balances shared later ↔ shared.Balanceable) := by
  have started : exec thread shared now .autoLoadBalance = .some
      (shared, .measuring 1 none none (shared.queueSizes 0) (shared.queueSizes 0) after) := by
    cases calls <;> rfl
  obtain ⟨maxQueue, minQueue, maxTask, minTask, search, measured⟩ :=
    (Measured.start shared).finish Nat.one_pos some thread after
  have between := measured.firstBetween_iff some sized
  have uneven := measured.uneven_iff some sized
  have ended (done : ¬ (maxQueue.isSome ∧ minQueue.isSome ∧ 10 < maxTask - minTask)) :
      Goes thread (shared, .measuring shared.threadNum maxQueue minQueue maxTask minTask after)
        (shared, now) := by
    rw [← calls.resume_eq]
    unfold Goes
    cases maxQueue <;> cases minQueue <;> simp_all [exec]
  by_cases moves : maxQueue.isSome ∧ minQueue.isSome ∧ 10 < maxTask - minTask
  · obtain ⟨isMax, isMin, apart⟩ := moves
    have balanceable : shared.Balanceable := .inr (.inl (between.mpr ⟨isMax, isMin⟩))
    obtain ⟨source, rfl⟩ := Option.isSome_iff_exists.mp isMax
    obtain ⟨target, rfl⟩ := Option.isSome_iff_exists.mp isMin
    obtain ⟨insideSource, most⟩ := measured.max source rfl
    obtain ⟨insideTarget, fewest⟩ := measured.min target rfl
    have longest := measured.longest sized insideSource most
    have shortest := measured.shortest sized insideTarget fewest
    have decides : Goes thread
        (shared, .measuring shared.threadNum (.some source) (.some target) maxTask minTask after)
        (shared, .unloading source target after) := by
      simp [Goes, exec, apart]
    cases found : walk 5 (shared.localQueues source).reverse with
    | mk tasks rest =>
    cases tasks with
    | nil =>
        have unloads : Goes thread (shared, .unloading source target after) (shared, now) := by
          simp [Goes, exec, Shared.unload, found, calls.resume_eq]
        have none := @length_walk 5 (shared.localQueues source).reverse
        rw [found, List.countP_reverse] at none
        refine ⟨shared, ⟨_, started, (search.tail decides).tail unloads⟩, ?_⟩
        refine iff_of_true ((balances_self sized).mpr (.inr ⟨source, longest, ?_⟩)) balanceable
        rw [List.length_nil] at none
        rw [Shared.unnamed]
        omega
    | cons task tasks =>
        have unloads : Goes thread (shared, .unloading source target after)
            (shared.store source rest.reverse (-(task :: tasks).length),
              .pushing (task :: tasks) target after) := by
          simp [Goes, exec, Shared.unload, found]
        have pushes : Goes thread
            (shared.store source rest.reverse (-(task :: tasks).length),
              .pushing (task :: tasks) target after)
            (shared.move source target (task :: tasks) rest.reverse, now) := by
          rw [Goes, exec, Shared.foldl_pushBack, calls.resume_eq, Shared.move]
        refine ⟨_, ⟨_, started, ((search.tail decides).tail unloads).tail pushes⟩, ?_⟩
        refine iff_of_true (balances_move sized longest shortest ?_ found) balanceable
        rw [sized source insideSource] at most
        rw [sized target insideTarget] at fewest
        omega
  · refine ⟨shared, ⟨_, started, search.tail (ended moves)⟩, ?_⟩
    rw [balances_self sized, Shared.Balanceable, uneven, between]
    constructor
    · exact Or.imp_right .inr
    · rintro (even | ⟨first, last⟩ | done)
      · exact .inl even
      · exact .inl fun apart => moves ⟨first, last, apart⟩
      · exact .inr done

/-- One call of `autoLoadBalance` balances the queues exactly if there is nothing to move, or the
first queue is neither the longest nor the shortest. -/
theorem autoLoadBalance_iff (calls : Calls now after) (some : 0 < shared.threadNum)
    (sized : shared.Sized) : (∃ later, BalancesAlone thread now shared later) ∧
      ∀ later, BalancesAlone thread now shared later →
        (Balances shared later ↔ shared.Balanceable) := by
  obtain ⟨result, alone, balances⟩ := @exists_balancesAlone thread _ _ _ calls some sized
  refine ⟨⟨result, alone⟩, fun later again => ?_⟩
  rwa [again.unique calls alone]

/-- Queues with these tasks, before any thread. -/
def filled (queues : List (List Task)) : Shared :=
  { (unstarted queues.length .leastLoaded).shared with
    localQueues := fun queue => queues.getD queue []
    queueSizes := fun queue => (queues.getD queue []).length }

theorem sized_filled (queues : List (List Task)) : (filled queues).Sized :=
  fun _ _ => rfl

/-- As many callbacks. -/
def callbacks (count : Nat) : List Task :=
  List.replicate count ⟨0, .func, none⟩

/-- The first queue is between the two others. -/
def betweenTwo : Shared :=
  filled [callbacks 1, ⟨1, .func, some 1⟩ :: callbacks 12, []]

theorem autoLoadBalance_iff_three : betweenTwo.Uneven ∧ ∃ later,
    BalancesAlone 3 .outside betweenTwo later ∧ Balances betweenTwo later := by
  obtain ⟨⟨later, alone⟩, balances⟩ :=
    autoLoadBalance_iff (@Calls.outside) (show 0 < betweenTwo.threadNum by decide) (sized_filled _)
  refine ⟨⟨1, 2, ?_, ?_, by decide⟩, later, alone, (balances later alone).mpr (.inr (.inl ?_))⟩
  · unfold Shared.Longest
    decide
  · unfold Shared.Shortest
    decide
  · exact ⟨⟨1, by decide, by decide⟩, 2, by decide, by decide⟩

/-- The first queue has eleven tasks, and the second none. -/
def firstFull : Shared :=
  filled [callbacks 11, []]

theorem not_balances : ¬ ∀ (thread : Nat) (shared later : Shared) (now : Thread) (after : After),
    Calls now after → 0 < shared.threadNum → shared.Sized →
      BalancesAlone thread now shared later → Balances shared later := by
  intro claimed
  have some : 0 < firstFull.threadNum := by decide
  obtain ⟨later, alone, balances⟩ :=
    @exists_balancesAlone 2 firstFull _ _ .outside some (sized_filled _)
  have longest : firstFull.Longest 0 := by
    unfold Shared.Longest
    decide
  have shortest : firstFull.Shortest 1 := by
    unfold Shared.Shortest
    decide
  obtain even | ⟨⟨queue, inside, longer⟩, -⟩ | ⟨queue, ⟨inside, most⟩, none⟩ :=
    balances.mp (claimed 2 firstFull later _ _ .outside some (sized_filled _) alone)
  · exact even ⟨0, 1, longest, shortest, by decide⟩
  · exact absurd (longest.2 queue inside) (Nat.not_le.mpr longer)
  · obtain rfl | rfl : queue = 0 ∨ queue = 1 := by
      change queue < 2 at inside
      omega
    · revert none
      decide
    · exact absurd (most 0 some) (by decide)

end Call

end Xten.Scheduler.LocalQueues
