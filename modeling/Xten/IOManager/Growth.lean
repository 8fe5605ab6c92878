import Xten.IOManager.Sections

/-!
# Growth of the table

The table keeps what it has as long as no `AddEvent` resizes it to less than it has become
since the call has looked at it.
-/

namespace Xten.IOManager

open Std.Interleaving

/-- Twice the fd is a size that the table does not go beyond, or below zero like the fd. -/
structure Shared.Roomy (shared : Shared) (fd : BitVec 32) : Prop where
  negative : fd.slt 0 → (fd * 2).slt 0
  positive : fd.slt 0 = false → (fd * 2).slt 0 = false
  long : fd.slt 0 = false → shared.fdContexts.length ≤ (fd * 2).toNat

/-- Whoever resizes the table leaves it at least as long as it is. -/
def Grows (state : State) (action : ThreadId × Action) : Prop :=
  ∀ fd adding, state.threads action.1 = .growing fd adding → state.shared.Roomy fd

/-- What the table has stays where it is. -/
structure Stable (first later : State) : Prop where
  length : first.shared.fdContexts.length ≤ later.shared.fdContexts.length
  stays : ∀ (place context : Nat), first.shared.fdContexts[place]? = some context →
    later.shared.fdContexts[place]? = some context

/-- Every call on an fd with an event registered finds the context that has it. -/
def Reaches (state : State) : Prop :=
  ∀ context ev, (state.shared.contexts context).events ev →
    ∀ fd, index fd = (state.shared.contexts context).fd →
      (∀ call, state.shared.look fd call = .found context call) ∧
      ∀ adding, state.shared.Roomy fd →
        (state.shared.grow fd adding).2 = .found context (.addEvent adding)

/-- The place of a context in the table is its fd. -/
structure Indexed (state : State) : Prop where
  table : state.shared.fdContexts = List.range state.shared.made
  fds : ∀ context < state.shared.made, (state.shared.contexts context).fd = context
  nonempty : 0 < state.shared.made
  fits : state.shared.made < 2 ^ 31

section Places

variable {state next : State} {action : ThreadId × Action} {shared resized : Shared}
  {now : Thread} {fd : BitVec 32} {call : Call}

theorem Indexed.initial : Indexed fresh :=
  ⟨rfl, fun _ _ => rfl, by decide, by decide⟩

theorem Indexed.beyond (indexed : Indexed state) :
    call.beyond fd state.shared.fdContexts.length ↔ state.shared.made ≤ index fd := by
  have nonempty := indexed.nonempty
  have fits := indexed.fits
  rw [indexed.table, List.length_range]
  cases call with
  | addEvent | delEvent => exact overLast_iff nonempty (by omega)
  | cancelEvent | cancelAll => exact overSize_iff (by omega)

theorem Indexed.look (indexed : Indexed state) (within : index fd < state.shared.made) :
    state.shared.look fd call = .found (index fd) call := by
  have found : state.shared.lookup fd call = some (index fd) := by
    rw [Shared.lookup, if_neg (mt indexed.beyond.mp (Nat.not_le.mpr within)), indexed.table,
      List.getElem?_range within]
  unfold Shared.look
  rw [found]

/-- A resize to as much or more appends contexts, each at its fd. -/
theorem Indexed.resize (indexed : Indexed state) {size : BitVec 32}
    (roomy : state.shared.made ≤ size.toNat)
    (taken : state.shared.FdContextsResize size = some resized) :
    resized.fdContexts = List.range size.toNat ∧ resized.made = size.toNat ∧
      size.toNat < 2 ^ 31 ∧ ∀ context < size.toNat,
        (resized.contexts context).fd = context := by
  have negative : ¬ size.slt 0 := by
    intro negative
    rw [Shared.FdContextsResize, if_pos negative] at taken
    cases taken
  have kept : state.shared.fdContexts.take size.toNat = List.range state.shared.made := by
    rw [indexed.table, List.take_of_length_le (by rwa [List.length_range])]
  rw [Shared.FdContextsResize, if_neg negative] at taken
  simp only [kept, List.length_range] at taken
  cases taken
  refine ⟨?_, ?_, ?_, fun context less => ?_⟩
  · have whole : state.shared.made + (size.toNat - state.shared.made) = size.toNat := by omega
    simp only
    rw [List.range_eq_range', List.range_eq_range', ← whole]
    simpa using List.range'_append_1 (s := 0) (m := state.shared.made)
      (n := size.toNat - state.shared.made)
  · simp only
    omega
  · have sign : size.msb = false :=
      BitVec.slt_zero_eq_msb.symm.trans (Bool.eq_false_of_not_eq_true negative)
    rw [BitVec.msb_eq_false_iff_two_mul_lt] at sign
    omega
  · simp only
    split
    case isTrue new =>
      rw [FdContext.create]
      simp only
      omega
    case isFalse old => exact indexed.fds context (by omega)

theorem index_nonneg (within : index fd < 2 ^ 31) : fd.slt 0 = false := by
  have extended := @BitVec.toNat_signExtend 32 fd 64
  refine Bool.eq_false_of_not_eq_true fun negative => ?_
  have sign : fd.msb = true := BitVec.slt_zero_eq_msb.symm.trans negative
  rw [sign, if_pos rfl] at extended
  unfold index at within
  omega

/-- An `AddEvent` that finds its fd in the table after all. -/
theorem Indexed.grow {adding : Adding} (indexed : Indexed state)
    (within : index fd < state.shared.made) (roomy : state.shared.Roomy fd) :
    (state.shared.grow fd adding).2 = .found (index fd) (.addEvent adding) := by
  have nonneg := index_nonneg (within.trans indexed.fits)
  have long : state.shared.made ≤ (fd * 2).toNat := by
    have long := roomy.long nonneg
    rwa [indexed.table, List.length_range] at long
  unfold Shared.grow
  cases taken : state.shared.FdContextsResize (fd * 2) with
  | none =>
      rw [Shared.FdContextsResize, if_neg (Bool.eq_false_iff.mp (roomy.positive nonneg))] at taken
      cases taken
  | some resized =>
      simp only
      rw [(indexed.resize long taken).1, List.getElem?_range (within.trans_le long)]

/-- A context is changed, but not its fd. -/
theorem Indexed.write {context : Nat} {value : FdContext} (indexed : Indexed state)
    (table : shared.fdContexts = state.shared.fdContexts) (made : shared.made = state.shared.made)
    (contexts : shared.contexts = (state.shared.write context value).contexts)
    (fd : value.fd = (state.shared.contexts context).fd) :
    Indexed (state.put action.1 shared now) := by
  refine ⟨?_, fun other less => ?_, ?_, ?_⟩
  all_goals rw [Config.put_shared] at *
  · rw [table, made]
    exact indexed.table
  · rw [made] at less
    rw [contexts]
    by_cases same : other = context
    · rw [same, Shared.write_self, fd, ← same]
      exact indexed.fds other less
    · rw [Shared.write_other same]
      exact indexed.fds other less
  · rw [made]
    exact indexed.nonempty
  · rw [made]
    exact indexed.fits

theorem Indexed.keep (indexed : Indexed state)
    (table : shared.fdContexts = state.shared.fdContexts) (made : shared.made = state.shared.made)
    (contexts : shared.contexts = state.shared.contexts) :
    Indexed (state.put action.1 shared now) := by
  obtain ⟨table', fds, nonempty, fits⟩ := indexed
  refine ⟨?_, ?_, ?_, ?_⟩
  all_goals rw [Config.put_shared, made]
  · rwa [table]
  · rwa [contexts]
  · exact nonempty
  · exact fits

/-- What the table has stays, in one step. -/
theorem Indexed.step (indexed : Indexed state) (grows : Grows state action)
    (taken : step state action = some next) :
    Indexed next ∧ state.shared.made ≤ next.shared.made := by
  refine step_cases (motive := fun next => Indexed next ∧ state.shared.made ≤ next.shared.made)
    taken fun shared now moves => ?_
  unfold Grows at grows
  generalize state.threads action.1 = was at moves grows
  cases moves with
  | stay | abort | count | log | skip | discount | next =>
      exact ⟨indexed.keep rfl rfl rfl, le_rfl⟩
  | add | delete | start | register | trigger | finish =>
      exact ⟨indexed.write rfl rfl rfl rfl, le_rfl⟩
  | @resize fd adding resized _ _ taken =>
      have roomy := grows fd adding rfl
      have nonneg : fd.slt 0 = false := by
        refine Bool.eq_false_of_not_eq_true fun negative => ?_
        rw [Shared.FdContextsResize, if_pos (roomy.negative negative)] at taken
        cases taken
      have long := roomy.long nonneg
      rw [indexed.table, List.length_range] at long
      obtain ⟨table, made, fits, fds⟩ := indexed.resize long taken
      have nonempty := indexed.nonempty
      refine ⟨⟨?_, ?_, ?_, ?_⟩, ?_⟩
      all_goals rw [Config.put_shared, made]
      · exact table
      · exact fds
      · omega
      · exact fits
      · exact long

end Places

section Runs

variable {first later : State}

theorem Indexed.of_runs (indexed : Indexed first) (run : Runs IOManager.step Grows first later) :
    Indexed later ∧ first.shared.made ≤ later.shared.made := by
  refine @Runs.invariant _ _ _ _ _ _
    (fun state => Indexed state ∧ first.shared.made ≤ state.shared.made) ?_ run ⟨indexed, le_rfl⟩
  rintro before action after ⟨indexed, more⟩ grows taken
  obtain ⟨still, longer⟩ := indexed.step grows taken
  exact ⟨still, more.trans longer⟩

theorem Indexed.reaches (indexed : Indexed first) (known : Known first) : Reaches first := by
  intro context ev registered fd isFd
  have made : context < first.shared.made := by
    by_contra beyond
    obtain ⟨other, created⟩ := known.unmade context (Nat.not_lt.mp beyond)
    rw [created] at registered
    cases registered
  rw [indexed.fds context made] at isFd
  rw [← isFd]
  have within : index fd < first.shared.made := isFd.trans_lt made
  exact ⟨fun call => indexed.look within, fun adding roomy => indexed.grow within roomy⟩

/-- As long as no resize is to less than the table has, the table only grows, and every
call on an fd with an event registered reaches the context that has it. -/
theorem table_stable (run : Runs step Grows fresh first) (more : Runs step Grows first later) :
    Stable first later ∧ Reaches later := by
  obtain ⟨indexed, -⟩ := Indexed.initial.of_runs run
  obtain ⟨indexed', longer⟩ := indexed.of_runs more
  have known := (Sound.of_runs (run.trans more)).known
  refine ⟨⟨?_, fun place context there => ?_⟩, indexed'.reaches known⟩
  · rwa [indexed.table, indexed'.table, List.length_range, List.length_range]
  · rw [indexed.table, List.getElem?_eq_some_iff] at there
    obtain ⟨less, there⟩ := there
    rw [List.length_range] at less
    rw [List.getElem_range] at there
    rw [indexed'.table, List.getElem?_range (less.trans_le longer), there]

/-- Two calls find their fds beyond the table; the one with the smaller fd is first. -/
def growBoth : List (ThreadId × Action) :=
  [(0, .call 40 (.addEvent ⟨.READ, false, some 0⟩)),
    (1, .call 50 (.addEvent ⟨.READ, false, some 0⟩)), (0, .go true), (1, .go true)]

def grows (state : State) (action : ThreadId × Action) : Bool :=
  match state.threads action.1 with
  | .growing fd _ =>
      !fd.slt 0 && !(fd * 2).slt 0 &&
        decide (state.shared.fdContexts.length ≤ (fd * 2).toNat)
  | _ => true

theorem grows_sound (state : State) (action : ThreadId × Action) (passes : grows state action) :
    Grows state action := by
  intro fd adding growing
  rw [grows, growing] at passes
  simp only [Bool.and_eq_true, Bool.not_eq_true', decide_eq_true_eq] at passes
  obtain ⟨⟨nonneg, positive⟩, long⟩ := passes
  refine ⟨fun negative => ?_, fun _ => positive, fun _ => long⟩
  rw [nonneg] at negative
  cases negative

def grownBoth : State := (replay step grows growBoth fresh).get (by decide)

theorem table_stable_growBoth : Stable fresh grownBoth ∧ Reaches grownBoth :=
  table_stable (.refl fresh) (.of_replay grows_sound (Option.some_get _).symm)

/-- Two calls find their fds beyond the table, and the one with the smaller fd is last. -/
def shrink : List (ThreadId × Action) :=
  [(0, .call 40 (.addEvent ⟨.READ, false, some 0⟩)),
    (1, .call 33 (.addEvent ⟨.READ, false, some 0⟩)), (0, .go true)]

def long : State := (replay step (fun _ _ => true) shrink fresh).get (by decide)

def shrunk : State :=
  (replay step (fun _ _ => true) [(1, .go true)] long).get (by decide)

theorem not_table_stable : ¬ ∀ first later, Runs step (fun _ _ => True) fresh first →
    Runs step (fun _ _ => True) first later → Stable first later ∧ Reaches later := by
  intro claimed
  have shorter := (claimed long shrunk (.of_replay (fun _ _ _ => trivial) (Option.some_get _).symm)
    (.of_replay (fun _ _ _ => trivial) (Option.some_get _).symm)).1.length
  have before : long.shared.fdContexts.length = 80 := by decide
  have after : shrunk.shared.fdContexts.length = 66 := by decide +kernel
  omega

end Runs

end Xten.IOManager
