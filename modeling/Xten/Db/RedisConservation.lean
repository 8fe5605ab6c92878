import Xten.Db.RedisPool

/-!
# The connections of a RedisManager

A connection is filed under the name that it is configured for, and recycled under the name that
it has itself. A connection of a fox kind is given that name; one of the others has none.
-/

namespace Xten.RedisManager

open Std.Interleaving

variable {conf : Conf} {state before after next : State} {name other : List Byte}
  {loan : Loan} {loans : List Loan} {index redis : Nat}

/-- The connections that are filed under a name, or lent under it. -/
def State.connections (state : State) (name : List Byte) : Finset Nat :=
  (state.datas name ++
    ((state.checking ++ state.lent).filter (·.name = name)).map Loan.redis).toFinset

/-- There are as many connections of each name as are configured. -/
def Conserved (conf : Conf) (state : State) : Prop :=
  ∀ entry ∈ conf.entries, ((state.connections entry.1).card : Int) = entry.2.pool

instance : Decidable (Conserved conf state) :=
  inferInstanceAs (Decidable (∀ _ ∈ _, _))

/-- What is released is filed under the name that it was asked for under. -/
def Returned (state : State) (action : Action) (next : State) : Prop :=
  ∀ index, action = .release index → ∀ loan, state.lent[index]? = some loan →
    loan.redis ∈ next.datas loan.name

/-- The configuration is one that `init` has a type for, with pools that its loop can count. -/
structure Conf.Valid (conf : Conf) : Prop where
  pools : ∀ entry ∈ conf.entries, 0 ≤ entry.2.pool ∧ entry.2.pool < 2 ^ 31
  types : ∀ entry ∈ conf.entries, 0 < entry.2.pool → (kindOf entry.2.type).isSome
  total : conf.turns.length < 2 ^ 64

/-- No connection is recycled that has another name than it was asked for under. -/
def Filed (state : State) : Action → Prop
  | .release index => ∀ loan ∈ state.lent[index]?, loan.recycles →
      (state.redis loan.redis).name = loan.name
  | _ => True

instance (state : State) (action : Action) : Decidable (Filed state action) :=
  match action with
  | .release _ => inferInstanceAs (Decidable (∀ _ ∈ _, _))
  | .turn _ | .task _ | .start | .get _ | .check _ _ _ _ _ => isTrue trivial

section Owned

/-- The connections among some loans that are recycled, and were asked for under a name. -/
def recycled (name : List Byte) (loans : List Loan) : List Nat :=
  (loans.filter fun loan => loan.recycles ∧ loan.name = name).map Loan.redis

@[simp] theorem recycled_nil : recycled name [] = [] :=
  rfl

@[simp] theorem recycled_append (loans others : List Loan) :
    recycled name (loans ++ others) = recycled name loans ++ recycled name others := by
  simp [recycled]

theorem mem_recycled :
    redis ∈ recycled name loans ↔
      ∃ loan ∈ loans, loan.recycles ∧ loan.name = name ∧ loan.redis = redis := by
  simp [recycled, and_assoc]

theorem recycled_cons :
    recycled name (loan :: loans) =
      (if loan.recycles ∧ loan.name = name then [loan.redis] else []) ++ recycled name loans := by
  by_cases counted : loan.recycles ∧ loan.name = name
  · simp [recycled, counted]
  · simp [recycled, counted]

/-- A loan and the others. -/
theorem recycled_eraseIdx (found : loans[index]? = some loan) :
    (recycled name loans).Perm (recycled name (loan :: loans.eraseIdx index)) := by
  obtain ⟨bound, rfl⟩ := List.getElem?_eq_some_iff.mp found
  have perm : (loans[index] :: loans.eraseIdx index).Perm loans :=
    List.getElem_cons_eraseIdx_perm bound
  exact (perm.symm.filter _).map _

/-- The connections of a name, each where it is to be found next. -/
def State.owned (state : State) (name : List Byte) : List Nat :=
  state.datas name ++ recycled name (state.checking ++ state.lent)

/-- How many connections of a name `init` is still to make. -/
def State.pending (state : State) (name : List Byte) : Nat :=
  state.turns.countP (·.1 = name) + state.tasks.countP (·.1 = name)

/-- A connection that many may have, and that stays where it is filed. -/
def Loan.Shared (state : State) (loan : Loan) : Prop :=
  (state.redis loan.redis).type.fox ∧ loan.redis ∈ state.datas loan.name

/-- What is tried is recycled, and so is what only one has. -/
structure Settled (state : State) : Prop where
  checking : ∀ loan ∈ state.checking, loan.recycles
  lent : ∀ loan ∈ state.lent, ¬ loan.recycles → loan.Shared state

/-- Each name has as many connections as it will have, each of them once. -/
structure Kept (conf : Conf) (state : State) : Prop extends Settled state where
  count : ∀ name, (state.owned name).length + state.pending name =
    conf.turns.countP (·.1 = name)
  nodup : ∀ name, (state.owned name).Nodup
  known : ∀ name, ∀ redis ∈ state.owned name, redis < state.addresses
  types : ∀ turn ∈ state.turns, (kindOf turn.2).isSome
  done : state.done + BitVec.ofNat 64 (state.turns.length + state.tasks.length) = conf.total
  few : state.turns.length + state.tasks.length < 2 ^ 64
  started : state.started → state.turns = [] ∧ state.tasks = []

/-- Connections pass from place to place. -/
structure Moved (before after : State) : Prop where
  turns : after.turns = before.turns
  tasks : after.tasks = before.tasks
  done : after.done = before.done
  started : after.started = before.started
  addresses : after.addresses = before.addresses
  owned : ∀ name, (after.owned name).Perm (before.owned name)
  checking : ∀ loan ∈ after.checking, loan ∈ before.checking ∨ loan.recycles
  lent : ∀ loan ∈ after.lent, ¬ loan.recycles →
    (loan ∈ before.lent → loan.Shared before) → loan.Shared after

theorem Moved.refl (state : State) : Moved state state where
  turns := rfl
  tasks := rfl
  done := rfl
  started := rfl
  addresses := rfl
  owned _ := .refl _
  checking _ member := .inl member
  lent _ member _ filed := filed member

theorem Kept.move (kept : Kept conf before) (moved : Moved before after) : Kept conf after where
  count name := by
    rw [State.pending, moved.turns, moved.tasks, (moved.owned name).length_eq]
    exact kept.count name
  nodup name := (moved.owned name).nodup_iff.mpr (kept.nodup name)
  known name redis member := by
    rw [moved.addresses]
    exact kept.known name redis ((moved.owned name).subset member)
  checking loan member := (moved.checking loan member).elim (kept.checking loan) id
  lent loan member plain := moved.lent loan member plain fun was => kept.lent loan was plain
  types := moved.turns ▸ kept.types
  done := by
    rw [moved.turns, moved.tasks, moved.done]
    exact kept.done
  few := by
    rw [moved.turns, moved.tasks]
    exact kept.few
  started := by
    rw [moved.turns, moved.tasks, moved.started]
    exact kept.started

/-- What a connection under a name makes of the ones of each name. -/
def own (name : List Byte) (redis : Nat) (other : List Byte) : List Nat :=
  if name = other then [redis] else []

theorem owned_pushBack (state : State) :
    ((state.pushBack name redis).owned other).Perm (own name redis other ++ state.owned other) := by
  dsimp only [State.owned, State.pushBack, own]
  split
  case isTrue same =>
    subst same
    rw [Function.update_self, List.append_assoc]
    exact List.perm_middle
  case isFalse apart =>
    rw [Function.update_of_ne (Ne.symm apart)]
    exact .refl _

theorem Loan.Shared.pushBack (shared : loan.Shared state) :
    loan.Shared (state.pushBack name redis) := by
  refine ⟨shared.1, ?_⟩
  dsimp only [State.pushBack]
  by_cases same : loan.name = name
  · rw [same, Function.update_self, ← same]
    exact List.mem_append_left _ shared.2
  · rw [Function.update_of_ne same]
    exact shared.2

theorem recycled_found (found : loans[index]? = some loan) (recycles : loan.recycles) :
    (recycled other loans).Perm (own loan.name loan.redis other ++
      recycled other (loans.eraseIdx index)) := by
  simpa only [own, recycled_cons, recycles, true_and] using
    @recycled_eraseIdx other _ _ _ found

theorem owned_lend (recycles : loan.recycles) (state : State) :
    ({ state with lent := state.lent ++ [loan] }.owned other).Perm
      (own loan.name loan.redis other ++ state.owned other) := by
  apply List.perm_iff_count.mpr
  intro one
  simp only [State.owned, own, recycled_append, recycled_cons, recycled_nil, recycles, true_and,
    List.count_append, List.count_nil]
  omega

/-- A connection that `get` has tried. -/
theorem owned_checked (found : state.checking[index]? = some loan) (recycles : loan.recycles) :
    (own loan.name loan.redis other ++
      { state with checking := state.checking.eraseIdx index }.owned other).Perm
        (state.owned other) := by
  apply List.perm_iff_count.mpr
  intro one
  have parts := (@recycled_found other _ _ _ found recycles).count_eq one
  simp only [State.owned, recycled_append, List.count_append] at parts ⊢
  omega

/-- A connection that is released. -/
theorem owned_released (found : state.lent[index]? = some loan) (recycles : loan.recycles) :
    (own loan.name loan.redis other ++
      { state with lent := state.lent.eraseIdx index }.owned other).Perm (state.owned other) := by
  apply List.perm_iff_count.mpr
  intro one
  have parts := (@recycled_found other _ _ _ found recycles).count_eq one
  simp only [State.owned, recycled_append, List.count_append] at parts ⊢
  omega

/-- `get` hands out a fox connection, and puts it at the end of its pool. -/
theorem fox_moved {rest : List Nat} (filed : state.datas name = redis :: rest)
    (fox : (state.redis redis).type.fox) :
    Moved state ({ state with
      datas := Function.update state.datas name rest
      lent := state.lent ++ [(⟨name, redis, false⟩ : Loan)] }.pushBack name redis) := by
  refine ⟨rfl, rfl, rfl, rfl, rfl, fun other => ?_, fun loan member => .inl member, ?_⟩
  · apply List.perm_iff_count.mpr
    intro one
    by_cases same : other = name
    · subst same
      simp [State.owned, State.pushBack, filed, recycled_cons, List.count_cons]
      omega
    · simp [State.owned, State.pushBack, same, recycled_cons]
  · intro loan member plain was
    obtain old | new := List.mem_append.mp member
    · obtain ⟨isFox, inDatas⟩ := was old
      refine ⟨isFox, ?_⟩
      by_cases same : loan.name = name
      · rw [same, filed] at inDatas
        simpa [State.pushBack, same, or_comm] using inDatas
      · simpa [State.pushBack, same] using inDatas
    · rw [List.mem_singleton.mp new]
      exact ⟨fox, by simp [State.pushBack]⟩

/-- `get` takes another connection out of its pool. -/
theorem plain_moved {rest : List Nat} (filed : state.datas name = redis :: rest)
    (plain : ¬ (state.redis redis).type.fox) :
    Moved state { state with
      datas := Function.update state.datas name rest
      checking := state.checking ++ [⟨name, redis, true⟩] } := by
  refine ⟨rfl, rfl, rfl, rfl, rfl, fun other => ?_, fun loan member => ?_, ?_⟩
  · apply List.perm_iff_count.mpr
    intro one
    by_cases same : other = name
    · subst same
      simp [State.owned, filed, recycled_cons, List.count_cons]
      omega
    · simp [State.owned, same, recycled_cons, Ne.symm same]
  · obtain old | new := List.mem_append.mp member
    · exact .inl old
    · rw [List.mem_singleton.mp new]
      exact .inr rfl
  · intro loan member _ was
    obtain ⟨isFox, inDatas⟩ := was member
    have apart : loan.redis ≠ redis := by
      rintro rfl
      exact plain isFox
    refine ⟨isFox, ?_⟩
    by_cases same : loan.name = name
    · rw [same, filed] at inDatas
      simpa [same, apart] using inDatas
    · simpa [same] using inDatas

theorem get_moved (state : State) (name : List Byte) : Moved state (state.get name) := by
  rw [State.get]
  split
  case h_1 => exact .refl state
  case h_2 redis rest filed =>
    split
    case isTrue fox => exact fox_moved filed fox
    case isFalse plain => exact plain_moved filed plain

theorem check_moved {now later : BitVec 64} {ping reconnect : Bool} (kept : Kept conf state)
    (taken : state.check index now later ping reconnect = some next) : Moved state next := by
  obtain ⟨loan, found, rfl⟩ := Option.map_eq_some_iff.mp taken
  have recycles := kept.checking loan (List.mem_of_getElem? found)
  dsimp only
  split
  case isTrue =>
    refine ⟨rfl, rfl, rfl, rfl, rfl, fun other => ?_, fun other member => ?_, ?_⟩
    · exact (owned_pushBack _).trans (owned_checked found recycles)
    · exact .inl (List.mem_of_mem_eraseIdx member)
    · exact fun other member _ was => (was member).pushBack
  case isFalse =>
    refine ⟨rfl, rfl, rfl, rfl, rfl, fun other => ?_, fun other member => ?_, ?_⟩
    · exact (owned_lend recycles _).trans (owned_checked found recycles)
    · exact .inl (List.mem_of_mem_eraseIdx member)
    · intro other member plain was
      obtain old | new := List.mem_append.mp member
      · obtain ⟨fox, inDatas⟩ := was old
        refine ⟨?_, inDatas⟩
        by_cases same : other.redis = loan.redis
        · simpa [same] using fox
        · simpa [same] using fox
      · rw [List.mem_singleton.mp new] at plain
        exact absurd recycles plain

theorem release_moved (filed : Filed state (.release index))
    (taken : state.release index = some next) : Moved state next := by
  obtain ⟨loan, found, rfl⟩ := Option.map_eq_some_iff.mp taken
  dsimp only
  split
  case isTrue recycles =>
    have same : (state.redis loan.redis).name = loan.name := filed loan found recycles
    dsimp only [State.freeRedis]
    rw [same]
    refine ⟨rfl, rfl, rfl, rfl, rfl, fun other => ?_, fun other member => .inl member, ?_⟩
    · exact (owned_pushBack _).trans (owned_released found recycles)
    · exact fun other member _ was => (was (List.mem_of_mem_eraseIdx member)).pushBack
  case isFalse plain =>
    refine ⟨rfl, rfl, rfl, rfl, rfl, fun other => ?_, fun other member => .inl member, ?_⟩
    · apply List.Perm.append_left
      rw [recycled_append, recycled_append]
      have parts := @recycled_eraseIdx other _ _ _ found
      rw [recycled_cons, if_neg fun both => plain both.1] at parts
      exact parts.symm.append_left _
    · exact fun other member _ was => was (List.mem_of_mem_eraseIdx member)

end Owned

section Making

theorem length_own : (own name redis other).length = if name = other then 1 else 0 := by
  rw [own]
  split <;> rfl

theorem mem_own {one : Nat} (member : one ∈ own name redis other) : one = redis := by
  rw [own] at member
  split at member
  case isTrue => exact List.mem_singleton.mp member
  case isFalse => exact absurd member List.not_mem_nil

/-- One of the turns or tasks of `init` comes to its connection. -/
theorem Kept.make {made : IRedis} {turns : List (List Byte × List Byte)}
    {tasks : List (List Byte × Kind)} (kept : Kept conf state) (within : turns ⊆ state.turns)
    (fewer : ∀ other, turns.countP (·.1 = other) + tasks.countP (·.1 = other) +
      (if name = other then 1 else 0) = state.pending other)
    (one : turns.length + tasks.length + 1 = state.turns.length + state.tasks.length) :
    Kept conf ({ state with turns := turns, tasks := tasks }.make name made) := by
  have perm (other : List Byte) :
      (({ state with turns := turns, tasks := tasks }.make name made).owned other).Perm
        (own name state.addresses other ++ state.owned other) := owned_pushBack _
  have fresh (other : List Byte) : state.addresses ∉ state.owned other := fun member =>
    Nat.lt_irrefl _ (kept.known other _ member)
  constructor
  case count =>
    intro other
    have before := kept.count other
    have less := fewer other
    have size := (perm other).length_eq
    rw [List.length_append, length_own] at size
    rw [size, State.pending]
    dsimp only [State.make, State.pushBack]
    omega
  case nodup =>
    intro other
    rw [(perm other).nodup_iff, own]
    split
    case isTrue => exact List.nodup_cons.mpr ⟨fresh other, kept.nodup other⟩
    case isFalse => exact kept.nodup other
  case known =>
    intro other redis member
    obtain new | old := List.mem_append.mp ((perm other).subset member)
    · exact Nat.lt_succ_of_le (Nat.le_of_eq (mem_own new))
    · exact Nat.lt_succ_of_lt (kept.known other redis old)
  case toSettled =>
    refine ⟨kept.checking, fun loan member plain => ?_⟩
    obtain ⟨fox, inDatas⟩ := kept.lent loan member plain
    apply Loan.Shared.pushBack
    refine ⟨?_, inDatas⟩
    have apart : loan.redis ≠ state.addresses := fun same =>
      fresh loan.name (same ▸ List.mem_append_left _ inDatas)
    dsimp only
    rwa [Function.update_of_ne apart]
  case types => exact fun turn member => kept.types turn (within member)
  case done =>
    have total := kept.done
    rw [← one, BitVec.ofNat_add] at total
    rw [← total, BitVec.add_comm (BitVec.ofNat 64 _), ← BitVec.add_assoc]
    rfl
  case few => exact Nat.lt_of_succ_lt (Nat.lt_of_le_of_lt (Nat.le_of_eq one) kept.few)
  case started =>
    intro started
    obtain ⟨noTurns, noTasks⟩ := kept.started started
    rw [noTurns, noTasks] at one
    exact absurd one (Nat.succ_ne_zero _)

theorem Kept.turn {now : BitVec 64} (kept : Kept conf state)
    (taken : state.turn now = some next) : Kept conf next := by
  rw [State.turn] at taken
  split at taken
  case h_1 => cases taken
  case h_2 name type turns ahead =>
    have types : ∀ turn ∈ (name, type) :: turns, (kindOf turn.2).isSome := ahead ▸ kept.types
    obtain ⟨kind, isKind⟩ := Option.isSome_iff_exists.mp (types _ List.mem_cons_self)
    have pending (other : List Byte) : state.pending other =
        (turns.countP (·.1 = other) + if name = other then 1 else 0) +
          state.tasks.countP (·.1 = other) := by
      rw [State.pending, ahead, List.countP_cons]
      simp
    dsimp only at taken
    rw [isKind] at taken
    dsimp only at taken
    split at taken
    all_goals obtain rfl := Option.some.inj taken
    case isTrue =>
      have size : turns.length + (state.tasks.length + 1) =
          state.turns.length + state.tasks.length := by
        rw [ahead, List.length_cons]
        omega
      refine ⟨⟨kept.checking, kept.lent⟩, fun other => ?_, kept.nodup, kept.known,
        fun turn later => types turn (List.mem_cons_of_mem _ later), ?_, ?_, fun started => ?_⟩
      · have before := kept.count other
        rw [pending] at before
        simp only [State.pending, State.owned, List.countP_append, List.countP_singleton,
          decide_eq_true_eq] at before ⊢
        omega
      · rw [List.length_append, List.length_singleton, size]
        exact kept.done
      · rw [List.length_append, List.length_singleton, size]
        exact kept.few
      · have none := (kept.started started).1
        rw [ahead] at none
        cases none
    case isFalse =>
      apply kept.make
      · rw [ahead]
        exact List.subset_cons_self _ _
      · intro other
        rw [pending]
        omega
      · rw [ahead, List.length_cons]
        omega

theorem Kept.task (kept : Kept conf state)
    (taken : state.task index = some next) : Kept conf next := by
  obtain ⟨⟨name, kind⟩, found, rfl⟩ := Option.map_eq_some_iff.mp taken
  obtain ⟨bound, here⟩ := List.getElem?_eq_some_iff.mp found
  apply kept.make
  · exact List.Subset.refl _
  · intro other
    have parts := (List.getElem_cons_eraseIdx_perm bound).countP_eq (·.1 = other)
    rw [List.countP_cons, here] at parts
    rw [State.pending, ← parts]
    simp
    omega
  · have size := List.length_eraseIdx_add_one bound
    omega

theorem Kept.start (kept : Kept conf state) (none : state.turns = [])
    (all : state.done = conf.total) : Kept conf { state with started := true } := by
  have rest : BitVec.ofNat 64 state.tasks.length = 0 := by
    have total := kept.done
    rw [all, none, List.length_nil, Nat.zero_add] at total
    simpa using total
  have few : state.tasks.length < 2 ^ 64 := Nat.lt_of_le_of_lt (Nat.le_add_left _ _) kept.few
  have noTasks : state.tasks = [] := by
    have length := congrArg BitVec.toNat rest
    rw [BitVec.toNat_ofNat, Nat.mod_eq_of_lt few] at length
    exact List.length_eq_zero_iff.mp length
  exact ⟨⟨kept.checking, kept.lent⟩, kept.count, kept.nodup, kept.known, kept.types, kept.done,
    kept.few, fun _ => ⟨none, noTasks⟩⟩

theorem total_eq (entries : List (List Byte × Params))
    (pools : ∀ entry ∈ entries, 0 ≤ entry.2.pool) :
    BitVec.ofNat 64 (entries.flatMap fun entry =>
      List.replicate entry.2.pool.toNat (entry.1, entry.2.type)).length =
      (entries.map fun entry => BitVec.ofInt 64 entry.2.pool).sum := by
  induction entries with
  | nil => rfl
  | cons entry entries ih =>
      have whole : BitVec.ofInt 64 entry.2.pool = BitVec.ofNat 64 entry.2.pool.toNat := by
        rw [← BitVec.ofInt_natCast, Int.toNat_of_nonneg (pools entry List.mem_cons_self)]
      rw [List.flatMap_cons, List.length_append, List.length_replicate, BitVec.ofNat_add,
        ih fun other member => pools other (List.mem_cons_of_mem _ member), List.map_cons,
        List.sum_cons, whole]

theorem Kept.fresh (valid : conf.Valid) : Kept conf (fresh conf) where
  count name := by
    show ([] : List Nat).length + (conf.turns.countP _ + ([] : List _).countP _) = _
    simp
  nodup _ := List.nodup_nil
  known _ _ member := absurd member List.not_mem_nil
  checking _ member := absurd member List.not_mem_nil
  lent _ member := absurd member List.not_mem_nil
  types turn member := by
    obtain ⟨entry, inEntries, inTurns⟩ := List.mem_flatMap.mp member
    obtain ⟨some, rfl⟩ := List.mem_replicate.mp inTurns
    exact valid.types entry inEntries (by omega)
  done := by
    show (0 : BitVec 64) + BitVec.ofNat 64 (conf.turns.length + 0) = conf.total
    rw [Nat.add_zero]
    apply (BitVec.zero_add _).trans
    exact total_eq conf.entries fun entry member => (valid.pools entry member).1
  few := valid.total
  started := nofun

/-- Each step keeps the connections, as long as none is recycled under another name. -/
theorem Kept.step {action : Action} (kept : Kept conf state) (filed : Filed state action)
    (taken : step conf state action = some next) : Kept conf next := by
  cases action with
  | turn now => exact kept.turn taken
  | task index => exact kept.task taken
  | start =>
      obtain ⟨⟨none, all⟩, same⟩ := Option.ite_none_right_eq_some.mp taken
      obtain rfl := Option.some.inj same
      exact kept.start none all
  | get name =>
      obtain ⟨-, same⟩ := Option.ite_none_right_eq_some.mp taken
      obtain rfl := Option.some.inj same
      exact kept.move (get_moved state name)
  | check index now later ping reconnect => exact kept.move (check_moved kept taken)
  | release index => exact kept.move (release_moved filed taken)

end Making

section Started

/-- The connections of a name are those that it owns. -/
theorem Settled.connections_eq (settled : Settled state) (name : List Byte) :
    state.connections name = (state.owned name).toFinset := by
  ext redis
  simp only [State.connections, State.owned, List.toFinset_append, Finset.mem_union,
    List.mem_toFinset, List.mem_map, List.mem_filter, mem_recycled, decide_eq_true_eq]
  constructor
  · rintro (filed | ⟨loan, ⟨member, rfl⟩, rfl⟩)
    · exact .inl filed
    · by_cases recycles : loan.recycles
      · exact .inr ⟨loan, member, recycles, rfl, rfl⟩
      · obtain tried | lent := List.mem_append.mp member
        · exact absurd (settled.checking loan tried) recycles
        · exact .inl (settled.lent loan lent recycles).2
  · rintro (filed | ⟨loan, member, -, rfl, rfl⟩)
    · exact .inl filed
    · exact .inr ⟨loan, ⟨member, rfl⟩, rfl⟩

theorem countP_turns {entries : List (List Byte × Params)} {entry : List Byte × Params}
    (names : (entries.map Prod.fst).Nodup) (member : entry ∈ entries) :
    (entries.flatMap fun entry => List.replicate entry.2.pool.toNat (entry.1, entry.2.type)).countP
      (·.1 = entry.1) = entry.2.pool.toNat := by
  induction entries with
  | nil => cases member
  | cons first entries ih =>
      obtain ⟨absent, rest⟩ := List.nodup_cons.mp names
      rw [List.flatMap_cons, List.countP_append, List.countP_replicate]
      obtain rfl | later := List.mem_cons.mp member
      · have none : (entries.flatMap fun entry =>
            List.replicate entry.2.pool.toNat (entry.1, entry.2.type)).countP
            (·.1 = entry.1) = 0 := by
          apply List.countP_eq_zero.mpr
          intro turn inTurns
          obtain ⟨other, inEntries, copies⟩ := List.mem_flatMap.mp inTurns
          rw [(List.mem_replicate.mp copies).2, decide_eq_true_eq]
          exact fun same => absent (List.mem_map.mpr ⟨other, inEntries, same⟩)
        rw [none]
        simp
      · have apart : first.1 ≠ entry.1 := fun same =>
          absent (same ▸ List.mem_map_of_mem later)
        rw [ih rest later]
        simp [apart]

/-- Once `init` has returned, each name owns as many connections as are configured. -/
theorem Kept.length_owned {entry : List Byte × Params} (kept : Kept conf state)
    (started : state.started) (member : entry ∈ conf.entries) :
    (state.owned entry.1).length = entry.2.pool.toNat := by
  obtain ⟨noTurns, noTasks⟩ := kept.started started
  have count := kept.count entry.1
  rw [State.pending, noTurns, noTasks] at count
  exact count.trans (countP_turns conf.names member)

theorem Kept.conserved (kept : Kept conf state) (valid : conf.Valid) (started : state.started) :
    Conserved conf state := by
  intro entry member
  rw [kept.connections_eq, List.toFinset_card_of_nodup (kept.nodup entry.1),
    kept.length_owned started member]
  exact Int.toNat_of_nonneg (valid.pools entry member).1

/-- A name that owns something is configured. -/
theorem Kept.configured (kept : Kept conf state) (some : redis ∈ state.owned name) :
    ∃ entry ∈ conf.entries, entry.1 = name := by
  have positive : 0 < conf.turns.countP (·.1 = name) := by
    rw [← kept.count name]
    exact Nat.lt_of_lt_of_le (List.length_pos_of_mem some) (Nat.le_add_right _ _)
  obtain ⟨turn, inTurns, named⟩ := List.countP_pos_iff.mp positive
  obtain ⟨entry, member, copies⟩ := List.mem_flatMap.mp inTurns
  rw [(List.mem_replicate.mp copies).2, decide_eq_true_eq] at named
  exact ⟨entry, member, named⟩

theorem release_settled (settled : Settled state) (taken : state.release index = some next) :
    Settled next := by
  obtain ⟨loan, -, rfl⟩ := Option.map_eq_some_iff.mp taken
  dsimp only
  split
  case isTrue =>
    refine ⟨settled.checking, fun other member plain => ?_⟩
    exact Loan.Shared.pushBack (settled.lent other (List.mem_of_mem_eraseIdx member) plain)
  case isFalse =>
    exact ⟨settled.checking, fun other member plain =>
      settled.lent other (List.mem_of_mem_eraseIdx member) plain⟩

/-- A connection with another name is lost to the one that it was asked for under. -/
theorem Kept.lost (kept : Kept conf state) (started : state.started)
    (astray : ¬ Filed state (.release index)) (taken : state.release index = some next) :
    ¬ Conserved conf next := by
  have settled := release_settled kept.toSettled taken
  obtain ⟨loan, found, rfl⟩ := Option.map_eq_some_iff.mp taken
  simp only [Filed, found, Option.mem_some_iff, forall_eq', Classical.not_imp] at astray
  obtain ⟨recycles, apart⟩ := astray
  dsimp only at settled ⊢
  rw [if_pos recycles] at settled ⊢
  have before := @owned_released state loan.name loan index found recycles
  have after := (@owned_pushBack (state.redis loan.redis).name loan.name loan.redis
    { state with lent := state.lent.eraseIdx index }).length_eq
  have less := before.length_eq
  rw [List.length_append, length_own, if_pos rfl] at less
  rw [List.length_append, length_own, if_neg apart, Nat.zero_add] at after
  have inOwned : loan.redis ∈ state.owned loan.name := before.subset (by simp [own])
  obtain ⟨entry, member, named⟩ := kept.configured inOwned
  intro conserved
  have size := conserved entry member
  have whole := kept.length_owned started member
  rw [settled.connections_eq, named] at size
  rw [named] at whole
  have card := List.toFinset_card_le (State.owned (State.freeRedis
    { state with lent := state.lent.eraseIdx index } loan.redis) loan.name)
  change (State.owned (State.freeRedis _ _) _).length = _ at after
  omega

theorem step_started {action : Action} (started : state.started)
    (taken : step conf state action = some next) : next.started := by
  cases action with
  | turn now =>
      rw [step, State.turn] at taken
      split at taken
      case h_1 => cases taken
      case h_2 =>
        dsimp only at taken
        split at taken
        case h_1 =>
          split at taken
          all_goals
            cases taken
            exact started
        case h_2 =>
          cases taken
          exact started
  | task index =>
      obtain ⟨_, -, rfl⟩ := Option.map_eq_some_iff.mp taken
      exact started
  | start =>
      obtain ⟨-, same⟩ := Option.ite_none_right_eq_some.mp taken
      obtain rfl := Option.some.inj same
      rfl
  | get name =>
      obtain ⟨-, same⟩ := Option.ite_none_right_eq_some.mp taken
      obtain rfl := Option.some.inj same
      exact (get_moved state name).started.trans started
  | check index now later ping reconnect =>
      obtain ⟨_, -, rfl⟩ := Option.map_eq_some_iff.mp taken
      dsimp only
      split
      all_goals exact started
  | release index =>
      obtain ⟨_, -, rfl⟩ := Option.map_eq_some_iff.mp taken
      dsimp only
      split
      all_goals exact started

/-- What is released is filed again, unless it is recycled under another name. -/
theorem Kept.returned_iff {action : Action} (kept : Kept conf state)
    (taken : RedisManager.step conf state action = some next) :
    Returned state action next ↔ Filed state action := by
  cases action with
  | turn | task | start | get | check => exact iff_of_true (fun _ same => by cases same) trivial
  | release index =>
      obtain ⟨loan, found, rfl⟩ := Option.map_eq_some_iff.mp taken
      simp only [Returned, Filed, found, Action.release.injEq, forall_eq', Option.some.injEq,
        Option.mem_some_iff]
      split
      case isTrue recycles =>
        dsimp only [State.freeRedis, State.pushBack]
        by_cases same : (state.redis loan.redis).name = loan.name
        · simp [same]
        · have absent : loan.redis ∉ state.datas loan.name := fun filed =>
            List.disjoint_of_nodup_append (kept.nodup loan.name) filed
              (mem_recycled.mpr ⟨loan, List.mem_append_right _ (List.mem_of_getElem? found),
                recycles, rfl, rfl⟩)
          rw [Function.update_of_ne (Ne.symm same)]
          simp [same, absent, recycles]
      case isFalse plain =>
        exact iff_of_true (kept.lent loan (List.mem_of_getElem? found) plain).2
          fun recycles => absurd recycles plain

/-- The connections of each name stay as many as are configured, and what is released can be
asked for again, exactly as long as nothing is recycled under another name. -/
theorem connections_conserved (valid : conf.Valid)
    (run : Runs (step conf) Filed (fresh conf) state) (started : state.started) :
    Conserved conf state ∧ ∀ action next, step conf state action = some next →
      (Conserved conf next ↔ Filed state action) ∧
        (Returned state action next ↔ Filed state action) := by
  have kept : Kept conf state := run.invariant (fun _ _ _ => Kept.step) (.fresh valid)
  refine ⟨kept.conserved valid started, fun action next taken => ⟨⟨?_, ?_⟩, ?_⟩⟩
  · intro conserved
    cases action with
    | release index =>
        by_contra astray
        exact kept.lost started astray taken conserved
    | turn | task | start | get | check => trivial
  · intro filed
    exact (kept.step filed taken).conserved valid (step_started started taken)
  · exact kept.returned_iff taken

/-- Two connections of a fox kind, and one of the plain kind under the name that it has. -/
def twoNames : Conf where
  entries := [([], [(ascii "type", ascii "redis"), (ascii "pool", ascii "1")]),
    (ascii "test", [(ascii "type", ascii "fox_redis"), (ascii "pool", ascii "2")])]
  names := by decide

def lentTwice : State :=
  (replay (step twoNames) (fun state action => decide (Filed state action))
    [.turn 0, .turn 0, .turn 0, .task 1, .task 0, .start, .get (ascii "test"), .get [],
      .check 0 40 40 false true] (fresh twoNames)).get (by decide)

theorem connections_conserved_two : Conserved twoNames lentTwice ∧
    ∀ action next, step twoNames lentTwice action = some next →
      (Conserved twoNames next ↔ Filed lentTwice action) ∧
        (Returned lentTwice action next ↔ Filed lentTwice action) :=
  connections_conserved ⟨by decide, by decide, by decide⟩
    (.of_replay (fun _ _ => of_decide_eq_true) (Option.some_get _).symm) rfl

/-- A pool of one plain connection. -/
def blog : Conf where
  entries := [(ascii "blog", [(ascii "type", ascii "redis"), (ascii "pool", ascii "1")])]
  names := by decide

/-- The connection has been used once. -/
def usedOnce : State :=
  (replay (step blog) (fun _ _ => true)
    [.turn 0, .start, .get (ascii "blog"), .check 0 1 1 true true, .release 0]
    (fresh blog)).get (by decide)

/-- The pool drains: a plain connection has no name of its own. -/
theorem not_connections_conserved : ¬ ∀ (conf : Conf) (state : State), conf.Valid →
    Runs (step conf) (fun _ _ => True) (fresh conf) state → state.started →
      Conserved conf state := by
  intro claim
  have conserved := claim blog usedOnce ⟨by decide, by decide, by decide⟩
    (.of_replay (fun _ _ _ => trivial) (Option.some_get _).symm) rfl
  revert conserved
  decide

end Started

end Xten.RedisManager
