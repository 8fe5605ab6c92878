import Xten.Rock.Completion

/-!
# Who holds a context

A context is in the map, or in the hands of the thread that puts it there or has taken it
out, until the thread has stored an outcome. `onTimer` does not take its context out of
the hands of another thread: the condition is that no other thread has it then.
-/

namespace Xten.RockStream

open Std.Interleaving

/-- The contexts that a thread puts into the map, or has taken out and stored no outcome
in. -/
def Thread.holds : Thread → List CtxId
  | .adding ctx _ | .storingResult ctx _ | .storingText ctx _ | .storingRsp ctx _ => [ctx]
  | .clearing rest _ | .draining rest _ => rest
  | .failing ctx rest _ => ctx :: rest
  | .loading _ rest _ | .comparing _ _ rest _ | .cancelling _ rest _ | .judging _ rest _
  | .judged _ rest _ | .scheduling _ rest _ => rest
  | _ => []

/-- The context that a thread completes: in `onTimer` from when it has left the map, else
in `doRsp`. -/
def Thread.settles : Thread → Option CtxId
  | .marking ctx | .disarming ctx | .loading ctx _ _ | .comparing ctx _ _ _
  | .cancelling ctx _ _ | .judging ctx _ _ | .judged ctx _ _ | .scheduling ctx _ _ => some ctx
  | _ => none

/-- The context that a thread has yet to test for a timeout, where it has its scheduler. -/
def Thread.decides : Thread → Option CtxId
  | .cancelling ctx _ _ | .judging ctx _ _ => some ctx
  | _ => none

/-- `onTimer` starts where no thread holds its context, and where a response that has been
stored in the context has been tested. -/
def Undisputed (state : State) (action : Action) : Prop :=
  ∀ self ctx, action.actor = some self → state.threads self = .erasing ctx →
    (∀ other, ctx ∉ (state.threads other).holds) ∧
      ((state.shared.ctxs ctx).rsp ≠ none → (state.shared.ctxs ctx).scheduler = none ∧
        ∀ other, (state.threads other).decides ≠ some ctx)

/-- Every context is in one place. -/
structure Custody (state : State) : Prop where
  nodup : ∀ thread, (state.threads thread).holds.Nodup
  exclusive : state.Exclusive fun thread ctx => ctx ∈ thread.holds
  registeredNodup : (state.shared.reqCtxs.map (·.2)).Nodup
  keyed : ∀ sn ctx, (sn, ctx) ∈ state.shared.reqCtxs → sn = (state.shared.ctxs ctx).sn
  registered : ∀ sn ctx, (sn, ctx) ∈ state.shared.reqCtxs → ∀ thread,
    ctx ∉ (state.threads thread).holds ∧ (state.threads thread).settles ≠ some ctx
  settling : ∀ thread other ctx, (state.threads thread).settles = some ctx →
    ctx ∉ (state.threads other).holds

section Custody

variable {first state later : State} {action : Action} {self : FiberId} {shared : Shared}
  {thread next : Thread} {ctx : CtxId} {sn : BitVec 32}

theorem After.holds_resume (after : After) : after.resume.holds = [] := by
  cases after <;> rfl

theorem After.settles_resume (after : After) : after.resume.settles = none := by
  cases after <;> rfl

theorem Thread.holds_mentions (holds : ctx ∈ thread.holds) : ctx ∈ thread.mentions := by
  cases thread <;> simp_all [Thread.holds, mentions]

theorem Thread.settles_mentions (settles : thread.settles = some ctx) : ctx ∈ thread.mentions := by
  cases thread <;> simp_all [Thread.settles, mentions]

theorem Thread.holds_adding {timeout : BitVec 64} (adding : thread = .adding ctx timeout) :
    ctx ∈ thread.holds := by
  rw [adding]
  exact List.mem_singleton_self ctx

/-- What a thread holds after a move, it held, or has made, or has taken from the map. -/
theorem Moves.holds (moves : Moves self state.shared thread shared next)
    (holds : ctx ∈ next.holds) :
    ctx ∈ thread.holds ∨ (ctx = state.shared.made ∧ ∃ call, thread = .making call) ∨
      ∃ sn, (sn, ctx) ∈ state.shared.reqCtxs ∧ (sn, ctx) ∉ shared.reqCtxs := by
  cases moves with
  | making call => simp_all [Thread.holds]
  | responding reply other found =>
      obtain rfl : ctx = other := by simpa [Thread.holds] using holds
      exact .inr (.inr ⟨_, Shared.find_mem found, by simp⟩)
  | swapping after =>
      obtain ⟨⟨sn, _⟩, there, rfl⟩ := List.mem_map.mp holds
      exact .inr (.inr ⟨sn, there, by simp⟩)
  | drained after => simp [After.holds_resume] at holds
  | _ => simp_all [Thread.holds]

/-- What a thread completes after a move, it did before, or it has stored its outcome, or
it is in `onTimer`. -/
theorem Moves.settles (moves : Moves self state.shared thread shared next)
    (settles : next.settles = some ctx) :
    thread.settles = some ctx ∨ ctx ∈ thread.holds ∨ thread = .erasing ctx := by
  cases moves with
  | drained after => simp [After.settles_resume] at settles
  | _ => simp_all [Thread.settles, Thread.holds]

theorem Moves.registeredNodup (moves : Moves self state.shared thread shared next)
    (nodup : (state.shared.reqCtxs.map (·.2)).Nodup)
    (apart : ∀ sn, ∀ ctx ∈ thread.holds, (sn, ctx) ∉ state.shared.reqCtxs) :
    (shared.reqCtxs.map (·.2)).Nodup := by
  cases moves with
  | adding ctx timeout =>
      rw [Shared.addCtx]
      split
      case h_1 => exact nodup
      case h_2 =>
        apply nodup.cons
        intro there
        obtain ⟨⟨sn, _⟩, registered, rfl⟩ := List.mem_map.mp there
        exact apart sn _ (List.mem_singleton_self _) registered
  | responding | erasing => exact nodup.sublist (List.filter_sublist.map _)
  | swapping => exact List.nodup_nil
  | _ => exact nodup

theorem Moves.holds_nodup (moves : Moves self state.shared thread shared next)
    (registered : (state.shared.reqCtxs.map (·.2)).Nodup) (nodup : thread.holds.Nodup)
    (apart : ∀ ctx, thread.settles = some ctx → ctx ∉ thread.holds) :
    next.holds.Nodup ∧ ∀ ctx, next.settles = some ctx → ctx ∉ next.holds := by
  cases moves with
  | making => simp [Thread.holds, Thread.settles]
  | responding => simp [Thread.holds, Thread.settles]
  | swapping after => exact ⟨registered, fun _ settles => nomatch settles⟩
  | drained after => simp [After.holds_resume]
  | _ => simp_all [Thread.holds, Thread.settles]

theorem Custody.moved (known : Known state) (custody : Custody state)
    (undisputed : Undisputed state action) (acts : action.actor = some self)
    (asBefore : state.threads self = thread)
    (moves : Moves self state.shared thread shared next) :
    Custody (state.put self shared next) := by
  obtain ⟨nodup, exclusive, registeredNodup, keyed, registered, settling⟩ := custody
  subst asBefore
  have heldMade : ∀ other, ∀ ctx ∈ (state.threads other).holds, ctx < state.shared.made :=
    fun other ctx holds => known.threads other ctx (Thread.holds_mentions holds)
  have selfNodup := moves.holds_nodup registeredNodup (nodup self) (settling self self)
  have fresh : ∀ other, other ≠ self → ∀ ctx ∈ next.holds, ctx ∉ (state.threads other).holds ∧
      (state.threads other).settles ≠ some ctx := by
    intro other apart ctx holds
    obtain held | ⟨rfl, _⟩ | ⟨sn, there, _⟩ := moves.holds holds
    · exact ⟨fun also => apart (exclusive other self ctx also held),
        fun settles => settling other self ctx settles held⟩
    · exact ⟨fun also => absurd (heldMade other _ also) (Nat.lt_irrefl _),
        fun settles => absurd (known.threads other _ (Thread.settles_mentions settles))
          (Nat.lt_irrefl _)⟩
    · exact registered sn ctx there other
  constructor
  case nodup =>
    intro other
    obtain ⟨_, now⟩ | ⟨_, now⟩ := Config.put_cases state self shared next other
    all_goals rw [now]
    · exact selfNodup.1
    · exact nodup other
  case exclusive => 
    apply exclusive.put
    intro ctx holds other apart
    exact (fresh other apart ctx holds).1
  case registeredNodup =>
    exact moves.registeredNodup registeredNodup fun sn ctx holds there =>
      (registered sn ctx there self).1 holds
  case keyed =>
    intro sn ctx there
    obtain older | ⟨timeout, adding, _, same, _⟩ := moves.registered there
    · rw [Config.put_shared, (moves.same (known.shared.reqCtxs sn ctx older)).sn]
      exact keyed sn ctx older
    · rw [Config.put_shared, (moves.same (heldMade self ctx (Thread.holds_adding adding))).sn]
      exact same
  case registered =>
    intro sn ctx there other
    obtain ⟨_, now⟩ | ⟨apart, now⟩ := Config.put_cases state self shared next other
    all_goals rw [now]
    · obtain older | ⟨timeout, _, rfl, _⟩ := moves.registered there
      · obtain ⟨unheld, unsettled⟩ := registered sn ctx older self
        constructor
        · intro holds
          obtain held | ⟨rfl, _⟩ | ⟨other, entry, gone⟩ := moves.holds holds
          · exact unheld held
          · exact absurd (known.shared.reqCtxs sn _ older) (Nat.lt_irrefl _)
          · rw [keyed other ctx entry, ← keyed sn ctx older] at gone
            exact gone there
        · intro settles
          obtain settled | held | erasing := moves.settles settles
          · exact unsettled settled
          · exact unheld held
          · have left := keyed sn ctx older
            rw [erasing] at moves
            cases moves
            simp [left] at there
      · simp [Thread.holds, Thread.settles]
    · obtain older | ⟨timeout, adding, _⟩ := moves.registered there
      · exact registered sn ctx older other
      · have held := Thread.holds_adding adding
        exact ⟨fun also => apart (exclusive other self ctx also held),
          fun settles => settling other self ctx settles held⟩
  case settling =>
    intro one other ctx settles holds
    obtain ⟨isOne, nowOne⟩ | ⟨isNotOne, nowOne⟩ := Config.put_cases state self shared next one
    all_goals
      rw [nowOne] at settles
      obtain ⟨isOther, nowOther⟩ | ⟨isNotOther, nowOther⟩ :=
        Config.put_cases state self shared next other
      all_goals rw [nowOther] at holds
    · exact selfNodup.2 ctx settles holds
    · obtain settled | held | erasing := moves.settles settles
      · exact settling self other ctx settled holds
      · exact isNotOther (exclusive other self ctx holds held)
      · exact (undisputed self ctx acts erasing).1 other holds
    · exact (fresh one isNotOne ctx holds).2 settles
    · exact settling one other ctx settles holds

theorem Custody.of_initial (start : Initial state) : Custody state := by
  constructor
  all_goals
    simp [Config.Exclusive, start.threads, start.reqCtxs, Thread.holds, Thread.settles]

theorem Custody.step (known : Known state) (custody : Custody state)
    (undisputed : Undisputed state action) (taken : step state action = some later) :
    Custody later := by
  refine step_cases taken ?_ ?_ ?_
  · intro self thread shared next acts asBefore moves
    exact custody.moved known undisputed acts asBefore moves
  all_goals
    intros
    exact ⟨custody.nodup, custody.exclusive, custody.registeredNodup, custody.keyed,
      custody.registered, custody.settling⟩

end Custody

end Xten.RockStream
