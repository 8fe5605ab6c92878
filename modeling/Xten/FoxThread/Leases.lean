import Xten.FoxThread.PoolMoves

/-!
# A FoxThreadPool hands out one callback at a time

A thread of the pool that is not free is referred to by one call at most. The pointers to it are
the one of this call and the one in the callback of the pool that it has. Whoever drops the last
one puts the thread back, and checks.
-/

namespace Xten.FoxThreadPool

open Std.Interleaving

variable {Task : Type}

/-!
## The pointers
-/

/-- The callback of the pool that `wrapcb` has been bound to. -/
def lease : Option (Callback Task) → Option Task
  | some (.wrapcb _ cb) => some cb
  | _ => none

/-- The callbacks of the pool among some callbacks. -/
def leases (callbacks : List (Option (Callback Task))) : List Task :=
  callbacks.filterMap lease

namespace Shared

variable (shared : Shared Task) (thr : Nat)

/-- The callbacks of the pool that are with the thread, and each of them with a pointer to it. -/
def copies : List Task :=
  leases (shared.taken thr ++ (shared.threads thr).callbacks)

/-- The callbacks of the pool that `check` has taken for the thread. -/
def handedTo : List Task :=
  (shared.handed.filter fun handed => handed.1 = thr).map Prod.snd

/-- The callbacks of the pool that have been put into the queue of the thread. -/
def given : List Task :=
  leases (shared.threads thr).pushed

/-- How many of its threads a pool has that have this number. -/
def lends : Nat :=
  if shared.start ∧ thr < shared.size then 1 else 0

end Shared

/-- The call has a pointer to the thread, or is to put it back. -/
def Call.refers (thr : Nat) : Call Task → Prop
  | .handing _ other _ | .sending _ other | .leaving _ other | .releasing _ other => other = thr
  | _ => False

/-- What there is of a thread that is referred to by this call and by no other. -/
def Shown (shared : Shared Task) (thr : Nat) : Call Task → Prop
  | .handing _ _ cb => shared.free.count thr = 0 ∧ shared.useCount thr = 1 ∧
      shared.copies thr = [] ∧ shared.handedTo thr = shared.given thr ++ [cb]
  | .sending _ _ | .leaving _ _ => shared.free.count thr = 0 ∧
      shared.useCount thr = (shared.copies thr).length + 1 ∧ (shared.copies thr).length ≤ 1 ∧
      shared.handedTo thr = shared.given thr
  | .releasing _ _ => shared.free.count thr = 0 ∧ shared.useCount thr = 0 ∧
      shared.copies thr = [] ∧ shared.handedTo thr = shared.given thr
  | _ => shared.free.count thr + (shared.copies thr).length = shared.lends thr ∧
      shared.useCount thr = (shared.copies thr).length ∧
      shared.handedTo thr = shared.given thr

/-- A thread that is in the hands of one call at most. -/
structure Lent (state : State Task) (thr : Nat) : Prop where
  unique : ∀ one other, (state.threads one).refers thr → (state.threads other).refers thr →
    one = other
  held : ∀ actor, (state.threads actor).refers thr →
    Shown state.shared thr (state.threads actor)
  alone : (∀ actor, ¬ (state.threads actor).refers thr) → Shown state.shared thr .outside
  real : ∀ actor, (state.threads actor).refers thr →
    state.shared.start = true ∧ thr < state.shared.size

namespace Lent

variable {state : State Task} {thr actor : Nat} {next : Shared Task} {now : Call Task}

/-- A call that has nothing to do with the thread. -/
theorem apart (lent : Lent state thr) (wasApart : ¬ (state.threads actor).refers thr)
    (nowApart : ¬ now.refers thr)
    (same : ∀ call : Call Task, state.shared.start = true ∨ call = .outside →
      Shown state.shared thr call → Shown next thr call)
    (start : state.shared.start = true → next.start = true)
    (size : next.size = state.shared.size) : Lent (state.put actor next now) thr := by
  have before : ∀ other, ((state.put actor next now).threads other).refers thr →
      (state.put actor next now).threads other = state.threads other := by
    intro other refers
    obtain ⟨-, current⟩ | ⟨-, current⟩ := state.put_cases actor next now other
    · rw [current] at refers
      exact absurd refers nowApart
    · exact current
  constructor
  · intro one other first second
    exact lent.unique one other (before one first ▸ first) (before other second ▸ second)
  · intro other refers
    have current := before other refers
    rw [current] at refers ⊢
    exact same _ (.inl (lent.real other refers).1) (lent.held other refers)
  · intro none
    refine same _ (.inr rfl) (lent.alone fun other refers => none other ?_)
    obtain ⟨rfl, -⟩ | ⟨-, current⟩ := state.put_cases actor next now other
    · exact absurd refers wasApart
    · rwa [current]
  · intro other refers
    rw [before other refers] at refers
    obtain ⟨on, inside⟩ := lent.real other refers
    exact ⟨start on, inside.trans_eq size.symm⟩

/-- A call that takes a thread which no other has, or goes on with its own. -/
theorem takes (only : ∀ other ≠ actor, ¬ (state.threads other).refers thr)
    (refers : now.refers thr) (shown : Shown next thr now)
    (real : next.start = true ∧ thr < next.size) : Lent (state.put actor next now) thr := by
  have itself : ∀ other, ((state.put actor next now).threads other).refers thr →
      other = actor := by
    intro other held
    obtain ⟨same, -⟩ | ⟨apart, current⟩ := state.put_cases actor next now other
    · exact same
    · rw [current] at held
      exact absurd held (only other apart)
  constructor
  · intro one other first second
    exact (itself one first).trans (itself other second).symm
  · intro other held
    rw [itself other held, Config.put_self]
    exact shown
  · intro none
    refine absurd refers ?_
    simpa using none actor
  · intro other _
    exact real

/-- No other call refers to a thread that this one refers to. -/
theorem only (lent : Lent state thr) (refers : (state.threads actor).refers thr) :
    ∀ other ≠ actor, ¬ (state.threads other).refers thr :=
  fun other apart held => apart (lent.unique other actor held refers)

/-- A call goes on with its thread. -/
theorem goes (lent : Lent state thr) (refers : (state.threads actor).refers thr)
    (still : now.refers thr) (shown : Shown next thr now)
    (start : state.shared.start = true → next.start = true)
    (size : next.size = state.shared.size) : Lent (state.put actor next now) thr :=
  takes (lent.only refers) still shown
    ⟨start (lent.real actor refers).1, (lent.real actor refers).2.trans_eq size.symm⟩

/-- A call is done with its thread. -/
theorem leaves (lent : Lent state thr) (refers : (state.threads actor).refers thr)
    (done : ¬ now.refers thr) (shown : Shown next thr .outside) :
    Lent (state.put actor next now) thr := by
  have none : ∀ other, ¬ ((state.put actor next now).threads other).refers thr := by
    intro other held
    obtain ⟨-, current⟩ | ⟨apart, current⟩ := state.put_cases actor next now other
    · rw [current] at held
      exact done held
    · rw [current] at held
      exact lent.only refers other apart held
  exact ⟨fun one _ held => absurd held (none one), fun other held => absurd held (none other),
    fun _ => shown, fun other held => absurd held (none other)⟩

end Lent

section Steps

variable {state : State Task} {shared next : Shared Task} {actor thr : Nat} {was now : Call Task}

/-- What is shown of a thread depends on what there is of it. -/
theorem Shown.same {call : Call Task} (shown : Shown shared thr call)
    (free : next.free.count thr = shared.free.count thr)
    (useCount : next.useCount thr = shared.useCount thr)
    (copies : next.copies thr = shared.copies thr)
    (given : next.given thr = shared.given thr)
    (handedTo : next.handedTo thr = shared.handedTo thr)
    (lends : next.lends thr = shared.lends thr) : Shown next thr call := by
  cases call <;> simpa only [Shown, free, useCount, copies, given, handedTo, lends] using shown

theorem leases_append (first second : List (Option (Callback Task))) :
    leases (first ++ second) = leases first ++ leases second :=
  List.filterMap_append

theorem copies_of {list queue : List (Option (Callback Task))} (taken : shared.taken thr = list)
    (callbacks : (shared.threads thr).callbacks = queue) :
    shared.copies thr = leases list ++ leases queue := by
  rw [Shared.copies, taken, callbacks, leases_append]

/-- What is seen of the threads is as before, if it is of the one that has changed. -/
theorem update_keeps {Value : Type} {threads : Nat → FoxThread.Shared (Callback Task)}
    {target : Nat} {thread : FoxThread.Shared (Callback Task)}
    (view : FoxThread.Shared (Callback Task) → Value) (same : view thread = view (threads target))
    (thr : Nat) : view (Function.update threads target thread thr) = view (threads thr) := by
  by_cases isTarget : thr = target
  · subst isTarget
    rw [Function.update_self, same]
  · rw [Function.update_of_ne isTarget]

/-- A thread changes, but not in what it has been given by `check`. -/
theorem Shown.setThread {call : Call Task} {target : Nat}
    {thread : FoxThread.Shared (Callback Task)} (shown : Shown shared thr call)
    (callbacks : leases thread.callbacks = leases (shared.threads target).callbacks)
    (pushed : leases thread.pushed = leases (shared.threads target).pushed) :
    Shown (shared.setThread target thread) thr call := by
  refine shown.same rfl rfl ?_ ?_ rfl rfl
  · rw [Shared.copies, Shared.copies, leases_append, leases_append]
    exact congrArg _ (update_keeps (fun thread => leases thread.callbacks) callbacks thr)
  · exact update_keeps (fun thread => leases thread.pushed) pushed thr

/-- What has been taken for a thread, after one more callback has been. -/
theorem handedTo_append (handed : List (Nat × Task)) (target : Nat) (cb : Task) :
    ((handed ++ [(target, cb)]).filter fun handed => handed.1 = thr).map Prod.snd =
      (handed.filter fun handed => handed.1 = thr).map Prod.snd ++
        if target = thr then [cb] else [] := by
  by_cases same : target = thr <;> simp [same]

/-- `check` takes a thread and a callback. -/
theorem Move.takes_lent (lent : Lent state thr) {below target : Nat} {cb : Task} {free : List Nat}
    {callbacks : List Task} (isWas : state.threads actor = .checking below)
    (on : state.shared.start = true) (isFree : state.shared.free = target :: free) :
    Lent (state.put actor
      { state.shared with
        free := free
        callbacks := callbacks
        useCount := Function.update state.shared.useCount target 1
        handed := state.shared.handed ++ [(target, cb)] } (.handing below target cb)) thr := by
  by_cases same : thr = target
  · subst same
    have some : 0 < state.shared.free.count thr := by
      rw [isFree, List.count_cons_self]
      exact Nat.succ_pos _
    have none : ∀ other, ¬ (state.threads other).refers thr := by
      intro other refers
      have shown := lent.held other refers
      generalize state.threads other = call at refers shown
      cases call <;> first | exact refers | exact absurd shown.1 (Nat.ne_of_gt some)
    obtain ⟨count, useCount, handed⟩ := lent.alone none
    rw [isFree, List.count_cons_self] at count
    have few : state.shared.lends thr ≤ 1 := by
      rw [Shared.lends]
      split <;> omega
    have inside : thr < state.shared.size := by
      by_contra outside
      rw [Shared.lends, if_neg fun both => outside both.2] at count
      omega
    have noCopies : state.shared.copies thr = [] := List.eq_nil_of_length_eq_zero (by omega)
    refine .takes (fun other _ => none other) rfl ⟨?_, Function.update_self .., noCopies, ?_⟩
      ⟨on, inside⟩
    · show free.count thr = 0
      omega
    · exact (handedTo_append _ thr cb).trans (congrArg₂ _ handed (if_pos rfl))
  · refine lent.apart (by simp [isWas, Call.refers]) (fun refers => same refers.symm)
      (fun call _ shown => shown.same ?_ (Function.update_of_ne same ..) rfl rfl ?_ rfl) id rfl
    · rw [isFree, List.count_cons_of_ne (Ne.symm same)]
    · refine (handedTo_append _ target cb).trans ?_
      rw [if_neg (Ne.symm same), List.append_nil]
      rfl

/-- Only the pointers to a thread are others than before. -/
structure Pointers (shared next : Shared Task) (thr useCount : Nat) (copies : List Task) :
    Prop where
  free : next.free.count thr = shared.free.count thr
  useCount : next.useCount thr = useCount
  copies : next.copies thr = copies
  given : next.given thr = shared.given thr
  handedTo : next.handedTo thr = shared.handedTo thr
  lends : next.lends thr = shared.lends thr
  start : next.start = shared.start
  size : next.size = shared.size

/-- A pointer goes. -/
theorem drop_pointers {target : Nat} {last more : Call Task}
    (gone : shared.drop target last more = (next, now)) (thr : Nat) :
    Pointers shared next thr (if thr = target then shared.useCount thr - 1 else shared.useCount thr)
        (shared.copies thr) ∧ now = if shared.useCount target = 1 then last else more := by
  unfold Shared.drop at gone
  cases gone
  refine ⟨⟨rfl, ?_, rfl, rfl, rfl, rfl, rfl, rfl⟩, rfl⟩
  split
  case isTrue same =>
    subst same
    exact Function.update_self ..
  case isFalse apart => exact Function.update_of_ne apart ..

/-- The first callback of a local list goes, and its pointer with it. -/
theorem destroy_pointers {callback : Option (Callback Task)} {rest : List (Option (Callback Task))}
    {last more : Call Task} (list : shared.taken actor = callback :: rest)
    (gone : Shared.drop { shared with taken := Function.update shared.taken actor rest } actor
      last more = (next, now)) (thr : Nat) :
    (∃ copies, Pointers shared next thr
        (if thr = actor then shared.useCount thr - 1 else shared.useCount thr) copies ∧
      if thr = actor then shared.copies thr = leases [callback] ++ copies
      else shared.copies thr = copies) ∧
      now = if shared.useCount actor = 1 then last else more := by
  obtain ⟨⟨free, useCount, copies, given, handedTo, lends, start, size⟩, isNow⟩ :=
    drop_pointers gone thr
  refine ⟨⟨_, ⟨free, useCount, rfl, given, handedTo, lends, start, size⟩, ?_⟩, isNow⟩
  rw [copies]
  split
  case isTrue same =>
    subst same
    have left : Function.update shared.taken thr rest thr = rest := Function.update_self ..
    rw [Shared.copies, list]
    exact (leases_append [callback] (rest ++ (shared.threads thr).callbacks)).trans
      (congrArg (fun list => leases [callback] ++ leases (list ++ _)) left.symm)
  case isFalse apart =>
    exact congrArg (fun list => leases (list ++ _)) (Function.update_of_ne apart ..).symm

theorem lends_le (shared : Shared Task) (thr : Nat) : shared.lends thr ≤ 1 := by
  rw [Shared.lends]
  split <;> omega

/-- A pointer of a call goes. -/
theorem Move.leaves_lent (lent : Lent state thr) {below target : Nat}
    (isWas : state.threads actor = .leaving below target)
    (gone : state.shared.drop target (.releasing (below + 1) target) (.checking below) =
      (next, now)) : Lent (state.put actor next now) thr := by
  obtain ⟨⟨free, useCount, copies, given, handedTo, lends, start, size⟩, isNow⟩ :=
    drop_pointers gone thr
  by_cases same : thr = target
  · subst same
    have refers : (state.threads actor).refers thr := by
      rw [isWas]
      rfl
    have shown := lent.held actor refers
    rw [isWas] at shown
    obtain ⟨count, used, few, handed⟩ := shown
    obtain ⟨on, inside⟩ := lent.real actor refers
    rw [if_pos rfl] at useCount
    rw [← handedTo, ← given] at handed
    by_cases last : state.shared.useCount thr = 1
    · rw [if_pos last] at isNow
      subst isNow
      have none : next.copies thr = [] := copies ▸ List.eq_nil_of_length_eq_zero (by omega)
      exact lent.goes refers rfl ⟨free.trans count, by omega, none, handed⟩ (fun _ => start ▸ on) size
    · rw [if_neg last] at isNow
      subst isNow
      have one : state.shared.lends thr = 1 := if_pos ⟨on, inside⟩
      rw [← copies] at used few
      exact lent.leaves refers id ⟨by omega, by omega, handed⟩
  · have nowApart : ¬ now.refers thr := by
      rw [isNow]
      split
      · exact fun refers => same refers.symm
      · exact id
    rw [if_neg same] at useCount
    exact lent.apart (by rw [isWas]; exact fun refers => same refers.symm) nowApart
      (fun _ _ shown => shown.same free useCount copies given handedTo lends)
      (fun on => start ▸ on) size

/-- A callback of the local list goes, and its pointer with it. -/
theorem Move.destroys_lent (lent : Lent state thr) {cb : Task}
    {rest : List (Option (Callback Task))} (isWas : state.threads actor = .outside)
    (inside : actor < state.shared.size) (on : state.shared.start = true)
    (list : state.shared.taken actor = some (.wrapcb actor cb) :: rest)
    (gone : Shared.drop { state.shared with taken := Function.update state.shared.taken actor rest }
      actor (.releasing 0 actor) .outside = (next, now)) :
    Lent (state.put actor next now) thr := by
  have wasApart : ¬ (state.threads actor).refers thr := by
    rw [isWas]
    exact id
  obtain ⟨⟨left, ⟨free, useCount, copies, given, handedTo, lends, start, size⟩, before⟩, isNow⟩ :=
    destroy_pointers list gone thr
  clear gone
  by_cases same : thr = actor
  · subst same
    rw [if_pos rfl] at useCount before
    have more : (state.shared.copies thr).length = left.length + 1 := by
      rw [before]
      rfl
    have few := lends_le state.shared thr
    by_cases last : state.shared.useCount thr = 1
    · -- Nobody refers to the thread, as there is no other pointer.
      rw [if_pos last] at isNow
      subst isNow
      have none : ∀ other, ¬ (state.threads other).refers thr := by
        intro other refers
        have shown := lent.held other refers
        generalize state.threads other = call at refers shown
        cases call with
        | handing | releasing => exact List.cons_ne_nil _ _ (before.symm.trans shown.2.2.1)
        | sending | leaving =>
            obtain ⟨-, used, -⟩ := shown
            omega
        | _ => exact refers
      obtain ⟨count, used, handed⟩ := lent.alone none
      have nothing : next.copies thr = [] := copies ▸ List.eq_nil_of_length_eq_zero (by omega)
      exact .takes (fun other _ => none other) rfl
        ⟨by omega, by omega, nothing, by rw [handedTo, given]; exact handed⟩
        ⟨start ▸ on, size ▸ inside⟩
    · rw [if_neg last] at isNow
      subst isNow
      refine lent.apart wasApart id (fun call _ shown => ?_) (fun on => start ▸ on) size
      cases call with
      | handing | releasing =>
          exact absurd (before.symm.trans shown.2.2.1) (List.cons_ne_nil _ _)
      | sending | leaving =>
          obtain ⟨count, used, one, handed⟩ := shown
          rw [← handedTo, ← given] at handed
          exact ⟨free.trans count, by rw [copies]; omega, by rw [copies]; omega, handed⟩
      | _ =>
          obtain ⟨count, used, -⟩ := shown
          omega
  · have nowApart : ¬ now.refers thr := by
      rw [isNow]
      split
      · exact fun refers => same refers.symm
      · exact id
    rw [if_neg same] at useCount before
    exact lent.apart wasApart nowApart
      (fun _ _ shown => shown.same free useCount (copies.trans before.symm) given handedTo lends)
      (fun on => start ▸ on) size

/-- `check` puts a callback into the queue of its thread. -/
theorem Move.hands_lent (lent : Lent state thr) {below target : Nat} {cb : Task}
    (isWas : state.threads actor = .handing below target cb)
    (threads : next.threads = Function.update state.shared.threads target
      ((state.shared.threads target).push [some (.wrapcb target cb)]))
    (useCount : next.useCount =
      Function.update state.shared.useCount target (state.shared.useCount target + 1))
    (free : next.free = state.shared.free) (taken : next.taken = state.shared.taken)
    (handed : next.handed = state.shared.handed) (start : next.start = state.shared.start)
    (size : next.size = state.shared.size) :
    Lent (state.put actor next (.sending below target)) thr := by
  have handedTo : next.handedTo thr = state.shared.handedTo thr := by
    rw [Shared.handedTo, handed, Shared.handedTo]
  by_cases same : thr = target
  · subst same
    have refers : (state.threads actor).refers thr := by
      rw [isWas]
      rfl
    have shown := lent.held actor refers
    rw [isWas] at shown
    obtain ⟨count, used, none, before⟩ := shown
    have copies : next.copies thr = [cb] := by
      rw [Shared.copies, threads, taken, Function.update_self, FoxThread.Shared.push,
        ← List.append_assoc, leases_append]
      exact congrArg (· ++ [cb]) none
    have given : next.given thr = state.shared.given thr ++ [cb] := by
      rw [Shared.given, threads, Function.update_self, FoxThread.Shared.push, leases_append]
      rfl
    have more : next.useCount thr = 2 := by rw [useCount, Function.update_self, used]
    exact lent.goes refers rfl
      ⟨by rw [free, count], by rw [more, copies]; rfl, by rw [copies]; exact Nat.le_refl 1,
        by rw [handedTo, before, given]⟩ (fun on => start ▸ on) size
  · have others : next.threads thr = state.shared.threads thr := by
      rw [threads, Function.update_of_ne same]
    refine lent.apart (by rw [isWas]; exact fun refers => same refers.symm)
      (fun refers => same refers.symm) (fun _ _ shown => ?_) (fun on => start ▸ on) size
    refine shown.same (by rw [free]) ?_ ?_ ?_ handedTo (by rw [Shared.lends, start, size]; rfl)
    · rw [useCount, Function.update_of_ne same]
    · rw [Shared.copies, others, taken, Shared.copies]
    · rw [Shared.given, others, Shared.given]

/-- `releaseFoxThread` puts a thread back. -/
theorem Move.releases_lent (lent : Lent state thr) {below target : Nat}
    (isWas : state.threads actor = .releasing below target) :
    Lent (state.put actor { state.shared with free := state.shared.free ++ [target] }
      (.checking below)) thr := by
  by_cases same : thr = target
  · subst same
    have refers : (state.threads actor).refers thr := by
      rw [isWas]
      rfl
    have shown := lent.held actor refers
    rw [isWas] at shown
    obtain ⟨count, used, none, handed⟩ := shown
    obtain ⟨on, inside⟩ := lent.real actor refers
    have one : state.shared.lends thr = 1 := if_pos ⟨on, inside⟩
    have none' : (state.shared.copies thr).length = 0 := by rw [none]; rfl
    refine lent.leaves refers id ⟨?_, used.trans none'.symm, handed⟩
    calc (state.shared.free ++ [thr]).count thr + (state.shared.copies thr).length
        = 1 := by rw [List.count_append, count, List.count_singleton_self, none']
      _ = state.shared.lends thr := one.symm
  · refine lent.apart (by rw [isWas]; exact fun refers => same refers.symm) id
      (fun _ _ shown => shown.same ?_ rfl rfl rfl rfl rfl) id rfl
    rw [List.count_append, List.count_singleton, if_neg (by simpa using Ne.symm same), Nat.add_zero]

/-- The threads are started. -/
theorem Move.starts_lent (lent : Lent state thr) (isWas : state.threads actor = .outside)
    (off : state.shared.start = false) :
    Lent (state.put actor
      { state.shared with free := List.range state.shared.size, start := true } (.checking 0))
      thr := by
  refine lent.apart (by rw [isWas]; exact id) id (fun call early shown => ?_) (fun _ => rfl) rfl
  obtain on | rfl := early
  · exact absurd (off.symm.trans on) Bool.false_ne_true
  · obtain ⟨count, used, handed⟩ := shown
    have nothing : state.shared.lends thr = 0 :=
      if_neg fun both => Bool.false_ne_true (off.symm.trans both.1)
    have noCopies : (state.shared.copies thr).length = 0 := by omega
    refine ⟨?_, used, handed⟩
    calc (List.range state.shared.size).count thr + (state.shared.copies thr).length
        = if thr < state.shared.size then 1 else 0 := by rw [noCopies, List.count_range, Nat.add_zero]
      _ = if true ∧ thr < state.shared.size then 1 else 0 := by simp

/-- A step of the pool keeps each of its threads in the hands of one call at most. -/
theorem Move.lent (move : Move state.shared actor was next now)
    (isWas : state.threads actor = was)
    (listed : ∀ thr, Listed thr (state.shared.threads thr) (state.shared.taken thr))
    (lent : ∀ thr, Lent state thr) (thr : Nat) : Lent (state.put actor next now) thr := by
  have idle : (was = .outside ∨ (∃ below, was = .checking below) ∨ ∃ thr, was = .telling thr) →
      ¬ (state.threads actor).refers thr := by
    rw [isWas]
    rintro (rfl | ⟨below, rfl⟩ | ⟨thr, rfl⟩) <;> exact id
  cases move with
  | starts off => exact starts_lent (lent thr) isWas off
  | pushes cbs => exact (lent thr).apart (idle (.inl rfl)) id (fun _ _ shown => shown) id rfl
  | directs target cb total =>
      refine (lent thr).apart (idle (.inl rfl)) id (fun _ _ shown => ?_) id rfl
      exact shown.setThread (leases_append _ _ |>.trans (List.append_nil _))
        (leases_append _ _ |>.trans (List.append_nil _))
  | takes below target cb free callbacks on isFree queued => exact takes_lent (lent thr) isWas on isFree
  | ends below lacking =>
      refine (lent thr).apart (idle (.inr (.inl ⟨below, rfl⟩))) ?_ (fun _ _ shown => shown) id rfl
      cases below <;> exact id
  | hands below target cb isStart =>
      exact hands_lent (lent thr) isWas rfl rfl rfl rfl rfl rfl rfl
  | returns below target cb ended =>
      exact absurd ((listed target).running.symm.trans ended) Bool.noConfusion
  | sends below target =>
      by_cases same : thr = target
      · subst same
        have refers : (state.threads actor).refers thr := by
          rw [isWas]
          rfl
        have shown := (lent thr).held actor refers
        rw [isWas] at shown
        exact (lent thr).goes refers rfl (Shown.setThread shown rfl rfl) id rfl
      · exact (lent thr).apart (by rw [isWas]; exact fun refers => same refers.symm)
          (fun refers => same refers.symm) (fun _ _ shown => shown.setThread rfl rfl) id rfl
  | leaves below target gone => exact leaves_lent (lent thr) isWas gone
  | releases below target => exact releases_lent (lent thr) isWas
  | tells target =>
      exact (lent thr).apart (idle (.inr (.inr ⟨target, rfl⟩))) id
        (fun _ _ shown => shown.setThread rfl rfl) id rfl
  | destroys callback rest inside on list done gone =>
      obtain ⟨rfl, rfl, direct⟩ | ⟨target, cb, rfl, gone⟩ := destroy_cases gone
      · refine (lent thr).apart (idle (.inl rfl)) id
          (fun _ _ shown => shown.same rfl rfl ?_ rfl rfl rfl) id rfl
        by_cases same : thr = actor
        · subst same
          have noLease : leases [callback] = [] := by
            obtain - | ⟨target, cb⟩ | cb := callback
            · rfl
            · exact absurd rfl (direct target cb)
            · rfl
          have before : leases (callback :: rest) = leases rest :=
            (leases_append [callback] rest).trans (congrArg (· ++ leases rest) noLease)
          rw [copies_of list rfl, before]
          exact copies_of (Function.update_self ..) rfl
        · exact congrArg (fun list => leases (list ++ _)) (Function.update_of_ne same ..)
      · have own : isFor actor (some (.wrapcb target cb)) :=
          (listed actor).given _ ((listed actor).known (list ▸ List.mem_cons_self))
        obtain rfl : target = actor := own
        exact destroys_lent (lent thr) isWas inside on list gone
  | swaps thread size received read =>
      obtain ⟨pushed, swapped, -⟩ := readCb_callbacks read
      refine (lent thr).apart (idle (.inl rfl)) id (fun _ _ shown => ?_) id rfl
      refine shown.same rfl rfl ?_ (update_keeps (fun thread => leases thread.pushed)
        (congrArg leases pushed) thr) rfl rfl
      by_cases same : thr = actor
      · subst same
        have list := (listed thr).list
        rw [received] at list
        have empty : (Function.update state.shared.threads thr thread thr).callbacks = [] := by
          rw [Function.update_self, swapped received]
        rw [copies_of list rfl]
        exact (copies_of (Function.update_self ..) empty).trans (List.append_nil _)
      · have still : (Function.update state.shared.threads actor thread thr).callbacks =
            (state.shared.threads thr).callbacks := by rw [Function.update_of_ne same]
        rw [copies_of (rfl : state.shared.taken thr = _) rfl]
        exact copies_of (Function.update_of_ne same ..) still
  | reads thread size away destroyed read =>
      obtain ⟨pushed, -, kept⟩ := readCb_callbacks read
      exact (lent thr).apart (idle (.inl rfl)) id (fun _ _ shown =>
        shown.setThread (congrArg leases (kept away)) (congrArg leases pushed)) id rfl

end Steps

end Xten.FoxThreadPool
