import Xten.Std.Interleaving

/-!
# RockConnectionPool

The connections of the synchronous build: those that are free with the times of their last use,
and those that are busy. Each section under `_mutex` is one step, and so is what `Get` does in
between. A connection is named by its address.
-/

namespace Xten.RockConnectionPool

open Std.Interleaving

/-- Where a call of `Get` is after it has left the lock. -/
inductive Stage where
  /-- It is about to call `IsConnectionExpired`. -/
  | testing
  /-- It sends a heartbeat, and connects again if that fails. -/
  | requesting
  /-- It could not connect again, and is about to put the connection back. -/
  | restoring
deriving DecidableEq, Repr

/-- A call of `Get` with its locals. -/
structure Call where
  conn : Nat
  lastTime : BitVec 64
  stage : Stage
deriving DecidableEq, Repr

/-- `waiting` are the fibers that `_cond` has, and `woken` those that have been signalled and have
not gone on. `lent` are the connections that have been returned, `added` those that the pool has
been given, and `lastActive` is when they were used last. `undefined` says that the front of an
empty list has been read, and `failed` that an assertion does not hold. -/
structure State where
  freeConns : List (Nat × BitVec 64)
  busyConns : List Nat
  waiting : Nat
  woken : Nat
  isStop : Bool
  idleTolerance : BitVec 64
  calls : List Call
  lent : List Nat
  added : List Nat
  lastActive : Nat → BitVec 64
  undefined : Bool
  failed : Bool

inductive Action where
  | add (conn : Nat) (now : BitVec 64)
  /-- A fiber calls `Get`. -/
  | get
  /-- A fiber goes on in the loop of `Get`. -/
  | resume
  | test (index : Nat) (now : BitVec 64)
  /-- The heartbeat is answered, with whether the answer is an error of the connection and whether
  it could connect again. -/
  | request (index : Nat) (failed reconnected : Bool)
  | restore (index : Nat)
  /-- The last pointer to a returned connection is gone. -/
  | release (index : Nat) (now : BitVec 64)
deriving DecidableEq, Repr

namespace State

variable (state : State)

/-- `Add(conn)`. Whether it could connect makes no difference. -/
def add (conn : Nat) (now : BitVec 64) : State :=
  { state with
    freeConns := state.freeConns ++ [(conn, now)]
    added := state.added ++ [conn]
    lastActive := Function.update state.lastActive conn now }

/-- The section of `Get`, up to where it waits, returns null or leaves the lock. -/
def get : State :=
  if state.isStop then state
  else
    match state.freeConns with
    | [] => { state with waiting := state.waiting + 1 }
    | (conn, lastTime) :: rest =>
        { state with
          freeConns := rest
          busyConns := state.busyConns ++ [conn]
          calls := state.calls ++ [⟨conn, lastTime, .testing⟩] }

def resume : Option State :=
  if state.woken = 0 then none else some { state with woken := state.woken - 1 }.get

/-- A call of `Get` is at another place. -/
def moveTo (index : Nat) (call : Call) (stage : Stage) : State :=
  { state with calls := state.calls.set index { call with stage := stage } }

/-- `Get` returns the connection. -/
def lend (index : Nat) (call : Call) : State :=
  { state with calls := state.calls.eraseIdx index, lent := state.lent ++ [call.conn] }

/-- `IsConnectionExpired` for what is in front of the free connections now. -/
def isConnectionExpired (now : BitVec 64) : Option Bool :=
  state.freeConns.head?.map fun front =>
    state.idleTolerance ≠ 0 ∧ now - front.2 > state.idleTolerance

def test (index : Nat) (now : BitVec 64) : Option State := do
  let call ← state.calls[index]?
  if call.stage = .testing then
    match state.isConnectionExpired now with
    | none => some { state with undefined := true }
    | some true => some (state.moveTo index call .requesting)
    | some false => some (state.lend index call)
  else none

def request (index : Nat) (failed reconnected : Bool) : Option State := do
  let call ← state.calls[index]?
  if call.stage = .requesting then
    if failed ∧ ¬ reconnected then some (state.moveTo index call .restoring)
    else some (state.lend index call)
  else none

def restore (index : Nat) : Option State := do
  let call ← state.calls[index]?
  if call.stage = .restoring then
    some { state with
      freeConns := state.freeConns ++ [(call.conn, call.lastTime)]
      busyConns := state.busyConns.filter (· ≠ call.conn)
      calls := state.calls.eraseIdx index }
  else none

/-- `_cond.signal()`. -/
def signal : State :=
  if state.waiting = 0 then state
  else { state with waiting := state.waiting - 1, woken := state.woken + 1 }

/-- `releaseDeleter(ptr)`. -/
def release (index : Nat) (now : BitVec 64) : Option State := do
  let conn ← state.lent[index]?
  let state := { state with lent := state.lent.eraseIdx index }
  if conn ∈ state.busyConns then
    some { state with
      busyConns := state.busyConns.erase conn
      freeConns := state.freeConns ++ [(conn, now)]
      lastActive := Function.update state.lastActive conn now }.signal
  else
    some { state with failed := true }

end State

/-- Nothing goes on once something undefined has been done or an assertion has failed. -/
def step (state : State) (action : Action) : Option State :=
  if state.undefined ∨ state.failed then none
  else
    match action with
    | .add conn now => some (state.add conn now)
    | .get => some state.get
    | .resume => state.resume
    | .test index now => state.test index now
    | .request index failed reconnected => state.request index failed reconnected
    | .restore index => state.restore index
    | .release index now => state.release index now

/-- A pool that has just been constructed. -/
def fresh (idleTolerance : BitVec 64) : State where
  freeConns := []
  busyConns := []
  waiting := 0
  woken := 0
  isStop := false
  idleTolerance := idleTolerance
  calls := []
  lent := []
  added := []
  lastActive := fun _ => 0
  undefined := false
  failed := false

/-- Every connection of the pool is in one of the lists, and once. Nothing undefined has been done,
and nobody waits for a connection that is free unless somebody has been signalled. -/
structure Sound (state : State) : Prop where
  once : ∀ conn, (state.freeConns.map Prod.fst).count conn + state.busyConns.count conn =
    if conn ∈ state.added then 1 else 0
  defined : state.undefined = false
  awake : 0 < state.waiting → state.freeConns ≠ [] → 0 < state.woken

/-- A test would use the time at which the connection to be returned was used last. -/
def Judged (state : State) (index : Nat) : Prop :=
  ∀ call ∈ state.calls[index]?, call.stage = .testing →
    state.freeConns.head?.map Prod.snd = some (state.lastActive call.conn)

/-- Another connection is in front of the free ones, with the time that `Get` has remembered. -/
def Twin (state : State) (index : Nat) : Prop :=
  ∀ call ∈ state.calls[index]?, call.stage = .testing →
    state.freeConns.head?.map Prod.snd = some call.lastTime

/-- Nobody waits, or there are signals for more connections than are free. -/
def Quiet (state : State) : Prop :=
  state.waiting = 0 ∨ state.freeConns.length < state.woken

/-- A connection is added once. It is neither added nor put back while somebody waits for it, and
the time of a test happens to be the right one. -/
def Allowed (state : State) : Action → Prop
  | .add conn _ => conn ∉ state.added ∧ Quiet state
  | .test index _ => Twin state index
  | .restore _ => Quiet state
  | .get | .resume | .request _ _ _ | .release _ _ => True

instance (state : State) (index : Nat) : Decidable (Twin state index) :=
  inferInstanceAs (Decidable (∀ _ ∈ _, _ → _))

instance (state : State) : Decidable (Quiet state) :=
  inferInstanceAs (Decidable (_ ∨ _))

instance (state : State) (action : Action) : Decidable (Allowed state action) :=
  match action with
  | .add _ _ => inferInstanceAs (Decidable (_ ∧ _))
  | .test index _ => inferInstanceAs (Decidable (Twin state index))
  | .restore _ => inferInstanceAs (Decidable (Quiet state))
  | .get | .resume | .request _ _ _ | .release _ _ => isTrue trivial

section Keeping

variable {state next : State} {index conn : Nat} {call : Call} {now : BitVec 64}

/-- The busy connections are those of the calls and those that have been returned. The times that
are remembered are those of the last use. -/
structure Kept (state : State) : Prop where
  running : state.isStop = false
  busy : state.busyConns.Perm (state.calls.map Call.conn ++ state.lent)
  nodup : (state.freeConns.map Prod.fst ++ state.busyConns).Nodup
  listed : ∀ conn, conn ∈ state.added ↔ conn ∈ state.freeConns.map Prod.fst ++ state.busyConns
  freeTimes : ∀ entry ∈ state.freeConns, entry.2 = state.lastActive entry.1
  callTimes : ∀ call ∈ state.calls, call.lastTime = state.lastActive call.conn
  defined : state.undefined = false
  asserted : state.failed = false

/-- As many have been signalled as connections are free, if others wait. -/
def Awake (state : State) : Prop :=
  state.waiting = 0 ∨ state.freeConns.length ≤ state.woken

theorem Kept.fresh (idleTolerance : BitVec 64) : Kept (fresh idleTolerance) where
  running := rfl
  busy := .refl _
  nodup := .nil
  listed := fun _ => iff_of_false List.not_mem_nil List.not_mem_nil
  freeTimes := fun _ inside => absurd inside List.not_mem_nil
  callTimes := fun _ inside => absurd inside List.not_mem_nil
  defined := rfl
  asserted := rfl

theorem Kept.mem_busy_of_call (kept : Kept state) (found : state.calls[index]? = some call) :
    call.conn ∈ state.busyConns :=
  kept.busy.mem_iff.mpr
    (List.mem_append_left _ (List.mem_map_of_mem (List.mem_of_getElem? found)))

theorem Kept.mem_busy_of_lent (kept : Kept state) (found : state.lent[index]? = some conn) :
    conn ∈ state.busyConns :=
  kept.busy.mem_iff.mpr (List.mem_append_right _ (List.mem_of_getElem? found))

/-- The connections have changed places. -/
theorem Kept.move (kept : Kept state) (running : next.isStop = state.isStop)
    (busy : next.busyConns.Perm (next.calls.map Call.conn ++ next.lent))
    (perm : (next.freeConns.map Prod.fst ++ next.busyConns).Perm
      (state.freeConns.map Prod.fst ++ state.busyConns))
    (added : next.added = state.added)
    (freeTimes : ∀ entry ∈ next.freeConns, entry.2 = next.lastActive entry.1)
    (callTimes : ∀ call ∈ next.calls, call.lastTime = next.lastActive call.conn)
    (defined : next.undefined = state.undefined) (asserted : next.failed = state.failed) :
    Kept next where
  running := running.trans kept.running
  busy := busy
  nodup := perm.nodup_iff.mpr kept.nodup
  listed := fun conn => by rw [added, kept.listed, perm.mem_iff]
  freeTimes := freeTimes
  callTimes := callTimes
  defined := defined.trans kept.defined
  asserted := asserted.trans kept.asserted

theorem get_of_nil (running : state.isStop = false) (free : state.freeConns = []) :
    state.get = { state with waiting := state.waiting + 1 } := by
  simp [State.get, running, free]

theorem get_of_cons {lastTime : BitVec 64} {rest : List (Nat × BitVec 64)}
    (running : state.isStop = false) (free : state.freeConns = (conn, lastTime) :: rest) :
    state.get = { state with
      freeConns := rest
      busyConns := state.busyConns ++ [conn]
      calls := state.calls ++ [⟨conn, lastTime, .testing⟩] } := by
  simp [State.get, running, free]

theorem Kept.get (kept : Kept state) : Kept state.get := by
  cases free : state.freeConns with
  | nil =>
      rw [get_of_nil kept.running free]
      exact kept.move rfl kept.busy (.refl _) rfl kept.freeTimes kept.callTimes rfl rfl
  | cons front rest =>
      obtain ⟨conn, lastTime⟩ := front
      have times := kept.freeTimes
      rw [free] at times
      rw [get_of_cons kept.running free]
      refine kept.move rfl ?_ ?_ rfl ?_ ?_ rfl rfl
      · change (state.busyConns ++ [conn]).Perm
          ((state.calls ++ [(⟨conn, lastTime, .testing⟩ : Call)]).map Call.conn ++ state.lent)
        rw [List.map_append, List.append_assoc]
        exact List.perm_append_comm.trans
          ((kept.busy.cons conn).trans List.perm_middle.symm)
      · change (rest.map Prod.fst ++ (state.busyConns ++ [conn])).Perm
          (state.freeConns.map Prod.fst ++ state.busyConns)
        rw [free, ← List.append_assoc]
        exact List.perm_append_comm
      · exact fun entry inside => times entry (List.mem_cons_of_mem _ inside)
      · intro call inside
        obtain old | new := List.mem_append.mp inside
        · exact kept.callTimes call old
        · obtain rfl := List.mem_singleton.mp new
          exact times (conn, lastTime) List.mem_cons_self

/-- The section takes a connection that there is. -/
theorem Awake.get (running : state.isStop = false)
    (awake : state.waiting = 0 ∨ state.freeConns.length ≤ state.woken + 1) : Awake state.get := by
  cases free : state.freeConns with
  | nil =>
      rw [get_of_nil running free]
      exact .inr (by simp [free])
  | cons front rest =>
      rw [get_of_cons running free]
      refine awake.imp_right fun enough => ?_
      rw [free, List.length_cons] at enough
      exact Nat.le_of_succ_le_succ enough

/-- A call with the same connection stands for another. -/
theorem Kept.moveTo (kept : Kept state) (found : state.calls[index]? = some call) (stage : Stage) :
    Kept (state.moveTo index call stage) := by
  obtain ⟨inside, rfl⟩ := List.getElem?_eq_some_iff.mp found
  have conns : (state.calls.set index { state.calls[index] with stage := stage }).map Call.conn =
      state.calls.map Call.conn := by
    have insideMap : index < (state.calls.map Call.conn).length := by rwa [List.length_map]
    have item : (state.calls.map Call.conn)[index] = state.calls[index].conn := List.getElem_map _
    rw [List.map_set]
    change (state.calls.map Call.conn).set index state.calls[index].conn = _
    rw [← item, List.set_getElem_self insideMap]
  refine kept.move rfl ?_ (.refl _) rfl kept.freeTimes ?_ rfl rfl
  · change state.busyConns.Perm ((state.calls.set index _).map Call.conn ++ state.lent)
    rw [conns]
    exact kept.busy
  · intro call member
    obtain old | rfl := List.mem_or_eq_of_mem_set member
    · exact kept.callTimes call old
    · have time := kept.callTimes _ (List.getElem_mem inside)
      exact time

/-- A call and the others. -/
theorem calls_perm (found : state.calls[index]? = some call) :
    (state.calls.map Call.conn).Perm
      (call.conn :: (state.calls.eraseIdx index).map Call.conn) := by
  obtain ⟨inside, rfl⟩ := List.getElem?_eq_some_iff.mp found
  exact (List.getElem_cons_eraseIdx_perm inside).symm.map Call.conn

theorem Kept.lend (kept : Kept state) (found : state.calls[index]? = some call) :
    Kept (state.lend index call) := by
  refine kept.move rfl ?_ (.refl _) rfl kept.freeTimes ?_ rfl rfl
  · change state.busyConns.Perm
      ((state.calls.eraseIdx index).map Call.conn ++ (state.lent ++ [call.conn]))
    refine kept.busy.trans (((calls_perm found).append_right _).trans ?_)
    rw [← List.append_assoc]
    exact (List.perm_append_singleton _ _).symm
  · exact fun other inside => kept.callTimes other (List.mem_of_mem_eraseIdx inside)

/-- A busy connection becomes free. -/
theorem free_perm (busy : conn ∈ state.busyConns) (time : BitVec 64) :
    ((state.freeConns ++ [(conn, time)]).map Prod.fst ++ state.busyConns.erase conn).Perm
      (state.freeConns.map Prod.fst ++ state.busyConns) := by
  rw [List.map_append, List.append_assoc]
  exact (List.perm_cons_erase busy).symm.append_left _

theorem Kept.busy_nodup (kept : Kept state) : state.busyConns.Nodup :=
  (List.nodup_append.mp kept.nodup).2.1

/-- A free connection is not busy. -/
theorem Kept.ne_of_free (kept : Kept state) (busy : conn ∈ state.busyConns) :
    ∀ entry ∈ state.freeConns, entry.1 ≠ conn := by
  rintro entry inside rfl
  exact (List.nodup_append.mp kept.nodup).2.2 entry.1 (List.mem_map_of_mem inside) entry.1 busy rfl

theorem Kept.restore (kept : Kept state) (found : state.calls[index]? = some call) :
    Kept { state with
      freeConns := state.freeConns ++ [(call.conn, call.lastTime)]
      busyConns := state.busyConns.filter (· ≠ call.conn)
      calls := state.calls.eraseIdx index } := by
  have removed : state.busyConns.filter (· ≠ call.conn) = state.busyConns.erase call.conn := by
    rw [kept.busy_nodup.erase_eq_filter]
    exact List.filter_congr fun conn _ => by rw [bne, beq_eq_decide, decide_not]
  have busy := kept.mem_busy_of_call found
  rw [removed]
  refine kept.move rfl ?_ (free_perm busy call.lastTime) rfl ?_ ?_ rfl rfl
  · have others := (kept.busy.trans ((calls_perm found).append_right state.lent)).erase call.conn
    rwa [List.cons_append, List.erase_cons_head] at others
  · intro entry member
    obtain old | new := List.mem_append.mp member
    · exact kept.freeTimes entry old
    · obtain rfl := List.mem_singleton.mp new
      exact kept.callTimes call (List.mem_of_getElem? found)
  · exact fun other inside => kept.callTimes other (List.mem_of_mem_eraseIdx inside)

/-- The times of the other connections are as before. -/
theorem freeTimes_push (times : ∀ entry ∈ state.freeConns, entry.2 = state.lastActive entry.1)
    (others : ∀ entry ∈ state.freeConns, entry.1 ≠ conn) (now : BitVec 64) :
    ∀ entry ∈ state.freeConns ++ [(conn, now)],
      entry.2 = Function.update state.lastActive conn now entry.1 := by
  intro entry member
  obtain old | new := List.mem_append.mp member
  · rw [Function.update_of_ne (others entry old)]
    exact times entry old
  · obtain rfl := List.mem_singleton.mp new
    exact (Function.update_self conn now state.lastActive).symm

theorem callTimes_update (times : ∀ call ∈ state.calls, call.lastTime = state.lastActive call.conn)
    (others : ∀ call ∈ state.calls, call.conn ≠ conn) (now : BitVec 64) :
    ∀ call : Call, call ∈ state.calls →
      call.lastTime = Function.update state.lastActive conn now call.conn := by
  intro call inside
  rw [Function.update_of_ne (others call inside)]
  exact times call inside

theorem Kept.release (kept : Kept state) (found : state.lent[index]? = some conn)
    (now : BitVec 64) :
    Kept { state with
      lent := state.lent.eraseIdx index
      busyConns := state.busyConns.erase conn
      freeConns := state.freeConns ++ [(conn, now)]
      lastActive := Function.update state.lastActive conn now } := by
  have busy := kept.mem_busy_of_lent found
  have lent : state.lent.Perm (conn :: state.lent.eraseIdx index) := by
    obtain ⟨inside, rfl⟩ := List.getElem?_eq_some_iff.mp found
    exact (List.getElem_cons_eraseIdx_perm inside).symm
  have parts := kept.busy.trans ((lent.append_left _).trans List.perm_middle)
  have apart : ∀ call ∈ state.calls, call.conn ≠ conn := by
    rintro call inside rfl
    have nodup := parts.nodup_iff.mp kept.busy_nodup
    exact (List.nodup_cons.mp nodup).1 (List.mem_append_left _ (List.mem_map_of_mem inside))
  refine kept.move rfl ?_ (free_perm busy now) rfl
    (freeTimes_push kept.freeTimes (kept.ne_of_free busy) now)
    (callTimes_update kept.callTimes apart now) rfl rfl
  have others := parts.erase conn
  rwa [List.erase_cons_head] at others

theorem Kept.add (kept : Kept state) (new : conn ∉ state.added) (now : BitVec 64) :
    Kept (state.add conn now) := by
  have absent : conn ∉ state.freeConns.map Prod.fst ++ state.busyConns :=
    fun inside => new ((kept.listed conn).mpr inside)
  have perm : ((state.freeConns ++ [(conn, now)]).map Prod.fst ++ state.busyConns).Perm
      (conn :: (state.freeConns.map Prod.fst ++ state.busyConns)) := by
    rw [List.map_append, List.append_assoc]
    exact List.perm_middle
  constructor
  · exact kept.running
  · exact kept.busy
  · exact perm.nodup_iff.mpr (List.nodup_cons.mpr ⟨absent, kept.nodup⟩)
  · intro other
    change other ∈ state.added ++ [conn] ↔
      other ∈ (state.freeConns ++ [(conn, now)]).map Prod.fst ++ state.busyConns
    rw [perm.mem_iff, List.mem_append, List.mem_singleton, List.mem_cons, kept.listed, or_comm]
  · refine freeTimes_push kept.freeTimes ?_ now
    rintro entry inside rfl
    exact absent (List.mem_append_left _ (List.mem_map_of_mem inside))
  · refine callTimes_update kept.callTimes ?_ now
    rintro call inside rfl
    refine absent (List.mem_append_right _ (kept.busy.mem_iff.mpr ?_))
    exact List.mem_append_left _ (List.mem_map_of_mem inside)
  · exact kept.defined
  · exact kept.asserted

/-- A call of `Get` at a stage, and what becomes of it. -/
theorem call_of_stage {stage : Stage} {result : Call → Option State}
    (taken : (do
      let call ← state.calls[index]?
      if call.stage = stage then result call else none) = some next) :
    ∃ call, state.calls[index]? = some call ∧ call.stage = stage ∧ result call = some next := by
  obtain ⟨call, found, taken⟩ := Option.bind_eq_some_iff.mp taken
  rw [Option.ite_none_right_eq_some] at taken
  exact ⟨call, found, taken⟩

/-- A test that has something to look at. -/
theorem Kept.test (kept : Kept state) (awake : Awake state) (twin : Twin state index)
    (taken : state.test index now = some next) : Kept next ∧ Awake next := by
  obtain ⟨call, found, stage, taken⟩ := call_of_stage taken
  have front := twin call found stage
  cases expired : state.isConnectionExpired now with
  | none =>
      rw [State.isConnectionExpired, Option.map_eq_none_iff] at expired
      rw [expired] at front
      cases front
  | some expired' =>
      rw [expired] at taken
      cases expired' with
      | true =>
          obtain rfl := Option.some.inj taken
          exact ⟨kept.moveTo found .requesting, awake⟩
      | false =>
          obtain rfl := Option.some.inj taken
          exact ⟨kept.lend found, awake⟩

theorem Kept.request (kept : Kept state) (awake : Awake state) {failed reconnected : Bool}
    (taken : state.request index failed reconnected = some next) : Kept next ∧ Awake next := by
  obtain ⟨call, found, -, taken⟩ := call_of_stage taken
  split at taken
  · obtain rfl := Option.some.inj taken
    exact ⟨kept.moveTo found .restoring, awake⟩
  · obtain rfl := Option.some.inj taken
    exact ⟨kept.lend found, awake⟩

/-- One more connection is free, and nobody has been told. -/
theorem Quiet.awake (quiet : Quiet state) {free : List (Nat × BitVec 64)}
    {entry : Nat × BitVec 64} (free_eq : free = state.freeConns ++ [entry])
    (waiting : next.waiting = state.waiting) (woken : next.woken = state.woken)
    (isFree : next.freeConns = free) : Awake next := by
  rw [Awake, waiting, woken, isFree, free_eq, List.length_append]
  exact quiet

/-- One more connection is free, and one fiber has been told if there is any. -/
theorem Awake.signal (awake : state.waiting = 0 ∨ state.freeConns.length ≤ state.woken + 1) :
    Awake state.signal := by
  rw [State.signal]
  split
  case isTrue none => exact .inl none
  case isFalse => exact awake.imp (fun none => by rw [none]) id

theorem Kept.signal (kept : Kept state) : Kept state.signal := by
  rw [State.signal]
  split
  · exact kept
  · exact kept.move rfl kept.busy (.refl _) rfl kept.freeTimes kept.callTimes rfl rfl

/-- An allowed step keeps all of it. -/
theorem Kept.step {action : Action} (kept : Kept state) (awake : Awake state)
    (allowed : Allowed state action) (taken : step state action = some next) :
    Kept next ∧ Awake next := by
  have clear : ¬ (state.undefined ∨ state.failed) := by
    simp [kept.defined, kept.asserted]
  rw [RockConnectionPool.step.eq_def, if_neg clear] at taken
  cases action with
  | add conn now =>
      obtain rfl := Option.some.inj taken
      obtain ⟨new, quiet⟩ := allowed
      exact ⟨kept.add new now, quiet.awake rfl rfl rfl rfl⟩
  | get =>
      obtain rfl := Option.some.inj taken
      exact ⟨kept.get, Awake.get kept.running (awake.imp_right Nat.le_succ_of_le)⟩
  | resume =>
      have resumed : state.resume = some next := taken
      rw [State.resume, Option.ite_none_left_eq_some] at resumed
      obtain ⟨some, same⟩ := resumed
      obtain rfl := Option.some.inj same
      have kept' : Kept { state with woken := state.woken - 1 } :=
        kept.move rfl kept.busy (.refl _) rfl kept.freeTimes kept.callTimes rfl rfl
      refine ⟨kept'.get, Awake.get kept.running (awake.imp_right fun enough => ?_)⟩
      change state.freeConns.length ≤ state.woken - 1 + 1
      omega
  | test index now => exact kept.test awake allowed taken
  | request index failed reconnected => exact kept.request awake taken
  | restore index =>
      obtain ⟨call, found, -, taken⟩ := call_of_stage taken
      obtain rfl := Option.some.inj taken
      exact ⟨kept.restore found, allowed.awake rfl rfl rfl rfl⟩
  | release index now =>
      obtain ⟨conn, found, taken⟩ := Option.bind_eq_some_iff.mp taken
      rw [if_pos (kept.mem_busy_of_lent found)] at taken
      obtain rfl := Option.some.inj taken
      refine ⟨(kept.release found now).signal, Awake.signal (awake.imp_right fun enough => ?_)⟩
      rw [List.length_append]
      exact Nat.succ_le_succ enough

theorem Kept.sound (kept : Kept state) (awake : Awake state) : Sound state where
  once := by
    intro conn
    rw [← List.count_append]
    by_cases added : conn ∈ state.added
    · rw [if_pos added]
      exact List.count_eq_one_of_mem kept.nodup ((kept.listed conn).mp added)
    · rw [if_neg added]
      exact List.count_eq_zero.mpr fun inside => added ((kept.listed conn).mpr inside)
  defined := kept.defined
  awake := by
    intro waiting some
    obtain none | enough := awake
    · omega
    · exact Nat.lt_of_lt_of_le (List.length_pos_iff.mpr some) enough

/-- The time that `Get` remembers is that of its connection. -/
theorem Kept.judged_iff (kept : Kept state) (index : Nat) : Judged state index ↔ Twin state index := by
  refine forall₂_congr fun call found => forall_congr' fun _ => ?_
  rw [kept.callTimes call (List.mem_of_getElem? found)]

end Keeping

/-- In the runs that keep to it everything is as claimed, and a test is right if and only if another
connection has been used last at the same time. -/
theorem sound_of_runs (idleTolerance : BitVec 64) (state : State)
    (run : Runs step Allowed (fresh idleTolerance) state) :
    Sound state ∧ ∀ index, Judged state index ↔ Twin state index := by
  let invariant : State → Prop := fun state => Kept state ∧ Awake state
  have start : invariant (fresh idleTolerance) := ⟨Kept.fresh idleTolerance, .inl rfl⟩
  have kept : invariant state :=
    run.invariant (fun _ _ _ holds allowed taken => holds.1.step holds.2 allowed taken) start
  exact ⟨kept.1.sound kept.2, kept.1.judged_iff⟩

/-- Two connections are added at one time, and one is handed out and comes back. -/
theorem sound_after_loan : ∃ state, state.freeConns.length = 2 ∧ Sound state ∧
    ∀ index, Judged state index ↔ Twin state index := by
  have taken : ∃ state, replay step (fun state action => decide (Allowed state action))
      [.add 1 5, .add 2 5, .get, .test 0 7, .release 0 9] (fresh 3) = some state ∧
        state.freeConns.length = 2 := ⟨_, rfl, rfl⟩
  obtain ⟨state, taken, two⟩ := taken
  have run : Runs step Allowed (fresh 3) state :=
    Runs.of_replay (fun _ _ => of_decide_eq_true) taken
  exact ⟨state, two, sound_of_runs 3 state run⟩

/-- A test of the only connection looks at an empty list, and one with others at the time of
another. A connection that is added while a fiber waits is free without anybody being told, and so
is one that could not connect again. -/
theorem misjudged_and_asleep :
    (∃ state, Runs step (fun _ _ => True) (fresh 0) state ∧ state.undefined = true) ∧
      (∃ state, Runs step (fun _ _ => True) (fresh 9) state ∧ ¬ Judged state 0) ∧
        (∃ state, Runs step (fun _ _ => True) (fresh 0) state ∧ ¬ Sound state) ∧
          ∃ state next, Runs step (fun _ _ => True) (fresh 9) state ∧
            step state (.restore 0) = some next ∧ next.undefined = false ∧ ¬ Sound next := by
  have runs : ∀ tolerance actions state,
      replay step (fun _ _ => true) actions (fresh tolerance) = some state →
        Runs step (fun _ _ => True) (fresh tolerance) state :=
    fun _ _ _ taken => Runs.of_replay (fun _ _ _ => trivial) taken
  refine ⟨⟨_, runs 0 [.add 1 5, .get, .test 0 7] _ rfl, rfl⟩,
    ⟨_, runs 9 [.add 1 5, .add 2 50, .get] _ rfl, fun judged => ?_⟩,
    ⟨_, runs 0 [.get, .add 1 5] _ rfl, fun sound => ?_⟩,
    ⟨_, _, runs 9 [.add 1 5, .add 2 5, .get, .test 0 50, .get, .get, .request 0 true false] _ rfl,
      rfl, rfl, fun sound => ?_⟩⟩
  · cases judged ⟨1, 5, .testing⟩ rfl rfl
  · exact Nat.not_lt_zero _ (sound.awake Nat.one_pos (List.cons_ne_nil _ _))
  · exact Nat.not_lt_zero _ (sound.awake Nat.one_pos (List.cons_ne_nil _ _))

end Xten.RockConnectionPool
