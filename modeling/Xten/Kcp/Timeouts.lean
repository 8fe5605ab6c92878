import Xten.Kcp.Waiting
import Xten.Std.Histories
import Xten.Timer.Manager

/-!
# Timeouts

`KcpSession::ReadMessage` and `KcpListener::Accept` with their timers: both arm a timer, wait under
a mutex, look at a flag that the callbacks of all these timers set, and cancel the timer. Each look
at the flag is a step, and so are the cancellation, what the timer manager does, and each callback.
-/

namespace Xten.Kcp

open Std.Histories Std.Interleaving

/-- A function that waits with a timeout. `ready` says that it need not wait, apart from the flag,
`take` is what it does under the mutex if the flag is not set, and `leave` what it does after that.
What others do to the data is `change`, under the mutex or not. -/
structure Waits where
  Data : Type
  Change : Type
  Taken : Type
  Input : Type
  Result : Type
  flag : Data → Bool
  setFlag : Bool → Data → Data
  ready : Data → Bool
  change : Change → Data → Data
  locked : Change → Bool
  take : Data → Taken × Data
  leave : Input → Taken → Data → Result × Data
  flag_setFlag : ∀ value data, flag (setFlag value data) = value
  flag_change : ∀ what data, flag (change what data) = flag data
  flag_take : ∀ data, flag (take data).2 = flag data
  flag_leave : ∀ input taken data, flag (leave input taken data).2 = flag data

section ReadMessage

/-- What happens to a session: a payload becomes complete, it is closed, or it cannot be read. -/
inductive Reader.Change where
  | arrive (payload : List Byte)
  | close
  | readError (code : Int)
deriving DecidableEq, Repr

namespace Reader

variable (reader : Reader)

def change : Change → Reader
  | .arrive payload => { reader with rcvQueue := reader.rcvQueue ++ [payload] }
  | .close => { reader with bClose := true }
  | .readError code => reader.notifyReadError code

/-- When `ReadMessage` does not wait, apart from a timeout. -/
def ready : Bool :=
  ¬ (reader.ikcpPeeksize ≤ 0 ∧ ¬ reader.bClose ∧ ¬ reader.bReadError)

/-- The part of `ReadMessage` behind the test of `_b_read_timeout` and under the mutex: what it
returns, or the payload that it has. -/
def take : Except Read (List Byte) × Reader :=
  if reader.bClose then (.error (.returned none .sessionClose), reader)
  else if reader.bReadError then (.error (.returned none .readError), reader)
  else
    match reader.rcvQueue with
    | [] => (.error .waits, reader)
    | payload :: rest =>
        if bufferSize < payload.length then
          (.error (.returned none .readError), reader.notifyReadError (-3))
        else
          (.ok payload, { reader with rcvQueue := rest })

/-- The rest of `ReadMessage`, for what its buffer holds first and what `error` is before. -/
def leave (input : List Byte × ReadErrno) : Except Read (List Byte) → Read × Reader
  | .error read => (read, reader)
  | .ok payload =>
      match parsed input.1 payload with
      | none => (.outside, reader)
      | some (true, msg) => (.returned (some msg) input.2, reader)
      | some (false, _) => (.returned none input.2, reader.notifyReadError payload.length)

/-- `ReadMessage` is these parts, one after the other. -/
theorem readMessage_eq_take_leave (buf : List Byte) (error : ReadErrno) :
    reader.readMessage buf error =
      if ¬ reader.ready ∧ ¬ reader.bReadTimeout then (.waits, reader)
      else if reader.bReadTimeout then
        (.returned none .readTimeout, { reader with bReadTimeout := false })
      else reader.take.2.leave (buf, error) reader.take.1 := by
  have waits : (¬ reader.ready ∧ ¬ reader.bReadTimeout) ↔ reader.ikcpPeeksize ≤ 0 ∧
      ¬ reader.bClose ∧ ¬ reader.bReadError ∧ ¬ reader.bReadTimeout := by
    rw [ready, decide_eq_true_iff, not_not, and_assoc, and_assoc]
  rw [readMessage]
  apply if_congr waits.symm rfl
  apply if_congr Iff.rfl rfl
  rw [take]
  split
  · rfl
  · split
    · rfl
    · cases reader.rcvQueue with
      | nil => rfl
      | cons payload rest =>
          dsimp only
          split <;> rfl

theorem bReadTimeout_notifyReadError (code : Int) :
    (reader.notifyReadError code).bReadTimeout = reader.bReadTimeout := by
  rw [notifyReadError]
  split <;> rfl

theorem bReadTimeout_change (what : Change) :
    (reader.change what).bReadTimeout = reader.bReadTimeout := by
  cases what with
  | arrive payload => rfl
  | close => rfl
  | readError code => exact reader.bReadTimeout_notifyReadError code

theorem bReadTimeout_take : reader.take.2.bReadTimeout = reader.bReadTimeout := by
  fun_cases take
  case case4 => exact reader.bReadTimeout_notifyReadError (-3)
  all_goals rfl

theorem bReadTimeout_leave (input : List Byte × ReadErrno) (taken : Except Read (List Byte)) :
    (reader.leave input taken).2.bReadTimeout = reader.bReadTimeout := by
  fun_cases leave reader input taken
  case case4 => exact reader.bReadTimeout_notifyReadError _
  all_goals rfl

end Reader

/-- `KcpSession::ReadMessage`. -/
def readMessage : Waits where
  Data := Reader
  Change := Reader.Change
  Taken := Except Read (List Byte)
  Input := List Byte × ReadErrno
  Result := Read
  flag := Reader.bReadTimeout
  setFlag value reader := { reader with bReadTimeout := value }
  ready := Reader.ready
  change what reader := reader.change what
  locked
    | .arrive _ => true
    | .close | .readError _ => false
  take := Reader.take
  leave input taken reader := reader.leave input taken
  flag_setFlag _ _ := rfl
  flag_change what reader := reader.bReadTimeout_change what
  flag_take := Reader.bReadTimeout_take
  flag_leave input taken reader := reader.bReadTimeout_leave input taken

end ReadMessage

section Accept

open KcpListener.Waiting (Data)

/-- What happens to a listener: a session is put into the backlog, it is closed, or it cannot be
read. -/
inductive AcceptChange where
  | pushBack (convid : BitVec 32)
  | close
  | readError
deriving DecidableEq, Repr

def acceptChange (data : Data) : AcceptChange → Data
  | .pushBack convid => { data with acceptBacklog := data.acceptBacklog ++ [convid] }
  | .close => { data with onceClose := .done }
  | .readError => { data with onceReadError := .done }

/-- The part of `Accept` behind the test of `_b_timeout`. -/
def acceptTake (data : Data) : Option (BitVec 32) × Data :=
  if data.bReadError then (none, data)
  else if data.bClose then (none, data)
  else (data.acceptBacklog.head?, { data with acceptBacklog := data.acceptBacklog.tail })

/-- `KcpListener::Accept`. -/
def accept : Waits where
  Data := Data
  Change := AcceptChange
  Taken := Option (BitVec 32)
  Input := Unit
  Result := Option (BitVec 32)
  flag := Data.bTimeout
  setFlag value data := { data with bTimeout := value }
  ready data := ¬ (data.acceptBacklog = [] ∧ ¬ data.bReadError ∧ ¬ data.bClose)
  change what data := acceptChange data what
  locked
    | .pushBack _ => true
    | .close | .readError => false
  take := acceptTake
  leave _ taken data := (taken, data)
  flag_setFlag _ _ := rfl
  flag_change what data := by cases what <;> rfl
  flag_take data := by
    rw [acceptTake]
    split
    · rfl
    · split <;> rfl
  flag_leave _ _ _ := rfl

end Accept

/-- The two functions with timeouts. -/
inductive Function where
  | readMessage
  | accept
deriving DecidableEq, Repr

def Function.waits : Function → Waits
  | .readMessage => Kcp.readMessage
  | .accept => Kcp.accept

namespace Timeouts

/-- What becomes of a call, which is named by a number. -/
inductive Event where
  | began (call : Nat)
  /-- The callback of the timer of a call has run. -/
  | fired (call : Nat)
  /-- A call has returned with a timeout. -/
  | timedOut (call : Nat)
  | returned (call : Nat)
deriving DecidableEq, Repr

/-- Where a call is: not begun; before it has the mutex, or waiting on the condition; behind the
loop; about to clear the flag; behind the test of the flag; behind the cancellation; behind what it
does under the mutex; or ended, with what it has returned unless it has reported a timeout. -/
inductive Call (waits : Waits) where
  | absent
  | waiting (timer : Option Timer.Address)
  | woken (timer : Option Timer.Address)
  | clearing (timer : Option Timer.Address)
  | cancelling (timer : Option Timer.Address)
  | taking (timer : Option Timer.Address)
  | leaving (timer : Option Timer.Address) (taken : waits.Taken)
  | ended (result : Option waits.Result)

variable {waits : Waits}

/-- The timer that a call has a pointer to. -/
def Call.timer : Call waits → Option Timer.Address
  | .waiting timer | .woken timer | .clearing timer | .cancelling timer | .taking timer
  | .leaving timer _ => timer
  | .absent | .ended _ => none

/-- `owner` is the call that has the mutex. A timer of a call has its number as the callback, and
those of others have none. `pending` are the callbacks that have been taken to be run. -/
structure Shared (waits : Waits) where
  data : waits.Data
  owner : Option Nat
  manager : TimerManager (Option Nat)
  timeoutMs : BitVec 64
  pending : List (Option Nat)
  calls : Nat
  log : List Event

abbrev State (waits : Waits) := Config (Shared waits) (Call waits)

inductive Action (waits : Waits) where
  | begin (now : BitVec 64) (address : Timer.Address)
  | go (call : Nat) (input : waits.Input)
  | change (what : waits.Change)
  | setTimeout (ms : BitVec 64)
  | listExpiredCb (now : BitVec 64) (nowTimer : Timer.Address)
  | run (index : Nat)
  /-- Somebody else uses the timers. -/
  | timers (op : TimerManager.Op (Option Nat))

/-- No call has a pointer to the timer at an address. -/
def Unheld (state : State waits) (address : Timer.Address) : Prop :=
  ∀ call < state.shared.calls, (state.threads call).timer ≠ some address

instance (state : State waits) (address : Timer.Address) : Decidable (Unheld state address) :=
  inferInstanceAs (Decidable (∀ call < _, _))

namespace Shared

variable (shared : Shared waits)

def note (event : Event) : Shared waits :=
  { shared with log := shared.log ++ [event] }

/-- A call begins, and arms a timer if there is a timeout. -/
def begin (now : BitVec 64) (address : Timer.Address) : Shared waits × Call waits :=
  let call := shared.calls
  let shared := { shared with calls := call + 1 }.note (.began call)
  if 0 < shared.timeoutMs then
    ({ shared with
      manager := (shared.manager.addTimer now shared.timeoutMs (some call) false address).1 },
      .waiting (some address))
  else
    (shared, .waiting none)

/-- A call goes on. One that waits does so as soon as it has the mutex and need not wait, whether it
has been signalled or not. -/
def go (call : Nat) (input : waits.Input) : Call waits → Option (Shared waits × Call waits)
  | .absent | .ended _ => none
  | .waiting timer =>
      if shared.owner = none ∧ (waits.ready shared.data ∨ waits.flag shared.data) then
        some ({ shared with owner := some call }, .woken timer)
      else
        none
  | .woken timer =>
      some (shared, if waits.flag shared.data then .clearing timer else .cancelling timer)
  | .clearing _ =>
      let shared := shared.note (.timedOut call)
      some ({ shared with data := waits.setFlag false shared.data, owner := none }, .ended none)
  | .cancelling timer =>
      match timer with
      | none => some (shared, .taking none)
      | some address => (shared.manager.cancel address).toOption.map fun cancelled =>
          ({ shared with manager := cancelled.1 }, .taking timer)
  | .taking timer =>
      let (taken, data) := waits.take shared.data
      some ({ shared with data := data, owner := none }, .leaving timer taken)
  | .leaving _ taken =>
      let (result, data) := waits.leave input taken shared.data
      some ({ shared with data := data }.note (.returned call), .ended (some result))

/-- A callback runs: `notifyReadTimeout` or `notifyTimeout`, if it is of a call. -/
def run (index : Nat) : Option (Shared waits) :=
  (shared.pending[index]?).map fun callback =>
    let shared := { shared with pending := shared.pending.eraseIdx index }
    match callback with
    | none => shared
    | some call =>
        { shared with data := waits.setFlag true shared.data }.note (.fired call)

end Shared

/-- What others may do with the timers: they have no pointer to the timer of a call. -/
def Foreign (state : State waits) : TimerManager.Op (Option Nat) → Prop
  | .addTimer _ _ cb _ address => cb = none ∧ Unheld state address
  | .cancel address | .refresh address _ | .reset address _ _ _ => Unheld state address
  | .listExpiredCb _ _ => False
  | .getNextTimer _ => True

instance (state : State waits) (op : TimerManager.Op (Option Nat)) : Decidable (Foreign state op) :=
  match op with
  | .addTimer _ _ _ _ _ => inferInstanceAs (Decidable (_ ∧ _))
  | .cancel _ | .refresh _ _ | .reset _ _ _ _ => inferInstanceAs (Decidable (Unheld _ _))
  | .listExpiredCb _ _ => isFalse id
  | .getNextTimer _ => isTrue trivial

def step (state : State waits) : Action waits → Option (State waits)
  | .begin now address =>
      if (state.shared.manager.timer address).cb = none ∧ Unheld state address then
        let (shared, call) := state.shared.begin now address
        some (state.put state.shared.calls shared call)
      else none
  | .go call input =>
      (state.shared.go call input (state.threads call)).map
        fun (shared, next) => state.put call shared next
  | .change what =>
      if waits.locked what ∧ state.shared.owner.isSome then none
      else
        let shared := { state.shared with data := waits.change what state.shared.data }
        some { state with shared := shared }
  | .setTimeout ms => some { state with shared := { state.shared with timeoutMs := ms } }
  | .listExpiredCb now nowTimer =>
      if (state.shared.manager.timer nowTimer).cb = none ∧ Unheld state nowTimer then
        (state.shared.manager.listExpiredCb now nowTimer).toOption.map fun (manager, cbs) =>
          let pending := state.shared.pending ++ cbs.filterMap id
          { state with shared := { state.shared with manager := manager, pending := pending } }
      else none
  | .run index => (state.shared.run index).map fun shared => { state with shared := shared }
  | .timers op =>
      if state.shared.manager.Allowed op ∧ Foreign state op then
        (state.shared.manager.step op).map fun manager =>
          { state with shared := { state.shared with manager := manager } }
      else none

def fresh (data : waits.Data) (now timeoutMs : BitVec 64) : State waits where
  shared :=
    { data := data
      owner := none
      manager := .fresh now
      timeoutMs := timeoutMs
      pending := []
      calls := 0
      log := [] }
  threads := fun _ => .absent

section Own

/-- A call that has still to look at the flag. -/
def Call.Untested : Call waits → Prop
  | .waiting _ | .woken _ => True
  | .absent | .clearing _ | .cancelling _ | .taking _ | .leaving _ _ | .ended _ => False

instance (call : Call waits) : Decidable call.Untested :=
  match call with
  | .waiting _ | .woken _ => isTrue trivial
  | .absent | .clearing _ | .cancelling _ | .taking _ | .leaving _ _ | .ended _ => isFalse id

/-- A call that has found the flag set. -/
def Call.Expired (call : Call waits) : Prop :=
  ∃ timer, call = .clearing timer

/-- No call begins while the flag is set, and no callback sets it while another call may find it
that has not got its own. -/
def Own (state : State waits) : Action waits → Prop
  | .begin _ _ => waits.flag state.shared.data = false
  | .run index => ∀ call ∈ state.shared.pending[index]?.join, ∀ other < state.shared.calls,
      other ≠ call → (state.threads other).Untested → .fired other ∈ state.shared.log
  | _ => True

instance (state : State waits) (action : Action waits) : Decidable (Own state action) :=
  match action with
  | .begin _ _ => inferInstanceAs (Decidable (_ = _))
  | .run _ => inferInstanceAs (Decidable (∀ call ∈ _, _))
  | .go _ _ | .change _ | .setTimeout _ | .listExpiredCb _ _ | .timers _ => isTrue trivial

/-- A call reports a timeout only after the callback of its own timer. -/
def Owned (state : State waits) : Prop :=
  ∀ call, Preceded state.shared.log (.fired call) (.timedOut call)

/-- Whoever may find the flag set, or has, has had the callback of its own timer. -/
structure Sound (state : State waits) : Prop where
  flagged : waits.flag state.shared.data → ∀ call, (state.threads call).Untested →
    .fired call ∈ state.shared.log
  expired : ∀ call, (state.threads call).Expired → .fired call ∈ state.shared.log
  owned : Owned state
  absent : ∀ call, state.shared.calls ≤ call → state.threads call = .absent

variable {state next : State waits} {shared : Shared waits} {call : Nat} {after : Call waits}

theorem Sound.fresh (data : waits.Data) (now timeoutMs : BitVec 64) :
    Sound (fresh data now timeoutMs) where
  flagged _ _ := nofun
  expired _ := nofun
  owned _ := .nil
  absent _ _ := rfl

/-- A call that has begun is not absent. -/
theorem Sound.begun (sound : Sound state) (present : state.threads call ≠ .absent) :
    call < state.shared.calls := by
  by_contra outside
  exact present (sound.absent call (Nat.le_of_not_lt outside))

/-- A call is replaced, and the flag is not set by that. -/
theorem Sound.put {new : List Event} (sound : Sound state) (begun : call < shared.calls)
    (calls : state.shared.calls ≤ shared.calls) (log : shared.log = state.shared.log ++ new)
    (flag : waits.flag shared.data → waits.flag state.shared.data)
    (untested : waits.flag shared.data → after.Untested → .fired call ∈ shared.log)
    (expired : after.Expired → .fired call ∈ shared.log)
    (owned : ∀ other, Preceded shared.log (.fired other) (.timedOut other)) :
    Sound (state.put call shared after) := by
  have kept : ∀ event ∈ state.shared.log, event ∈ shared.log := by
    rw [log]
    exact fun _ => List.mem_append_left new
  constructor
  case flagged =>
    intro set other
    obtain ⟨rfl, now⟩ | ⟨-, now⟩ := state.put_cases call shared after other
    all_goals rw [now]
    · exact untested set
    · exact fun still => kept _ (sound.flagged (flag set) other still)
  case expired =>
    intro other
    obtain ⟨rfl, now⟩ | ⟨-, now⟩ := state.put_cases call shared after other
    all_goals rw [now]
    · exact expired
    · exact fun found => kept _ (sound.expired other found)
  case owned => exact owned
  case absent =>
    intro other outside
    obtain ⟨rfl, -⟩ | ⟨-, now⟩ := state.put_cases call shared after other
    · exact absurd begun (Nat.not_lt_of_le outside)
    · rw [now]
      exact sound.absent other (calls.trans outside)

theorem Shared.begin_spec (shared : Shared waits) (now : BitVec 64) (address : Timer.Address) :
    (shared.begin now address).1.data = shared.data ∧
      (shared.begin now address).1.calls = shared.calls + 1 ∧
      (shared.begin now address).1.log = shared.log ++ [.began shared.calls] ∧
      ¬ (shared.begin now address).2.Expired := by
  rw [Shared.begin]
  split <;> exact ⟨rfl, rfl, rfl, nofun⟩

theorem Sound.begin {now : BitVec 64} {address : Timer.Address} (sound : Sound state)
    (own : waits.flag state.shared.data = false) :
    Sound (state.put state.shared.calls (state.shared.begin now address).1
      (state.shared.begin now address).2) := by
  obtain ⟨data, calls, log, unexpired⟩ := state.shared.begin_spec now address
  apply sound.put (calls ▸ Nat.lt_succ_self _) (calls ▸ Nat.le_succ _) log (data ▸ id)
  · rw [data]
    exact fun set => absurd set (Bool.eq_false_iff.mp own)
  · exact fun expired => absurd expired unexpired
  · rw [log]
    exact fun other => (sound.owned other).append_other (by simp)

/-- A call goes on, and the flag and the log are as before. -/
theorem Sound.move (sound : Sound state) (begun : call < state.shared.calls)
    (flag : waits.flag shared.data = waits.flag state.shared.data)
    (calls : shared.calls = state.shared.calls) (log : shared.log = state.shared.log)
    (untested : after.Untested → (state.threads call).Untested)
    (expired : after.Expired → .fired call ∈ state.shared.log) :
    Sound (state.put call shared after) := by
  apply sound.put (calls ▸ begun) calls.ge (log.trans (List.append_nil _).symm) (flag ▸ id)
  all_goals rw [log]
  · exact fun set still => sound.flagged (flag ▸ set) call (untested still)
  · exact expired
  · exact sound.owned

theorem Sound.go {input : waits.Input} (sound : Sound state)
    (taken : state.shared.go call input (state.threads call) = some (shared, after)) :
    Sound (state.put call shared after) := by
  have begun : call < state.shared.calls := sound.begun fun none => by
    rw [none] at taken
    cases taken
  cases at_ : state.threads call with
  | absent | ended result =>
      rw [at_] at taken
      cases taken
  | waiting timer =>
      rw [at_] at taken
      obtain ⟨-, taken⟩ := Option.ite_none_right_eq_some.mp taken
      cases taken
      exact sound.move begun rfl rfl rfl (fun _ => at_ ▸ trivial) nofun
  | woken timer =>
      rw [at_] at taken
      cases taken
      apply sound.move begun rfl rfl rfl (fun _ => at_ ▸ trivial)
      split
      · exact fun _ => sound.flagged ‹_› call (at_ ▸ trivial)
      · exact nofun
  | clearing timer =>
      rw [at_] at taken
      cases taken
      have fired : .fired call ∈ state.shared.log := sound.expired call ⟨timer, at_⟩
      apply sound.put
      · exact begun
      · exact le_rfl
      · rfl
      · exact fun set => absurd set (Bool.eq_false_iff.mp (waits.flag_setFlag _ _))
      · exact nofun
      · exact nofun
      · intro other
        apply (sound.owned other).append
        exact fun same => Event.timedOut.inj same ▸ fired
  | cancelling timer =>
      rw [at_] at taken
      cases timer with
      | none =>
          cases taken
          exact sound.move begun rfl rfl rfl nofun nofun
      | some address =>
          obtain ⟨cancelled, -, same⟩ := Option.map_eq_some_iff.mp taken
          cases same
          exact sound.move begun rfl rfl rfl nofun nofun
  | taking timer =>
      rw [at_] at taken
      cases taken
      exact sound.move begun (waits.flag_take _) rfl rfl nofun nofun
  | leaving timer was =>
      rw [at_] at taken
      cases taken
      apply sound.put
      · exact begun
      · exact le_rfl
      · rfl
      · exact (waits.flag_leave _ _ _).le
      · exact nofun
      · exact nofun
      · exact fun other => (sound.owned other).append_other (by simp)

/-- What does not touch the flag, the calls and the log. -/
theorem Sound.aside (sound : Sound state) (flag : waits.flag shared.data =
      waits.flag state.shared.data) (calls : shared.calls = state.shared.calls)
    (log : shared.log = state.shared.log) : Sound { state with shared := shared } := by
  constructor
  case flagged =>
    dsimp only
    rw [flag, log]
    exact sound.flagged
  case expired =>
    dsimp only
    rw [log]
    exact sound.expired
  case owned =>
    intro call
    dsimp only
    rw [log]
    exact sound.owned call
  case absent =>
    dsimp only
    rw [calls]
    exact sound.absent

theorem Sound.run {index : Nat} (sound : Sound state) (own : Own state (.run index))
    (taken : state.shared.run index = some shared) :
    Sound { state with shared := shared } := by
  obtain ⟨callback, found, rfl⟩ := Option.map_eq_some_iff.mp taken
  cases callback with
  | none => exact sound.aside rfl rfl rfl
  | some call =>
      have kept : ∀ event ∈ state.shared.log, event ∈ state.shared.log ++ [.fired call] :=
        fun _ => List.mem_append_left _
      constructor
      case flagged =>
        intro _ other untested
        by_cases same : other = call
        · rw [same]
          exact List.mem_append_right _ List.mem_cons_self
        · apply kept
          apply own call (by rw [found]; rfl) other _ same untested
          apply sound.begun
          intro none
          rw [none] at untested
          exact untested
      case expired => exact fun other found => kept _ (sound.expired other found)
      case owned => exact fun other => (sound.owned other).append_other (by simp)
      case absent => exact sound.absent

theorem Sound.step {action : Action waits} (sound : Sound state) (own : Own state action)
    (taken : Timeouts.step state action = some next) : Sound next := by
  cases action with
  | begin now address =>
      obtain ⟨-, same⟩ := Option.ite_none_right_eq_some.mp taken
      obtain rfl := Option.some.inj same
      exact sound.begin own
  | go call input =>
      obtain ⟨⟨shared, after⟩, went, rfl⟩ := Option.map_eq_some_iff.mp taken
      exact sound.go went
  | change what =>
      obtain ⟨-, same⟩ := Option.ite_none_left_eq_some.mp taken
      obtain rfl := Option.some.inj same
      exact sound.aside (waits.flag_change what state.shared.data) rfl rfl
  | setTimeout ms =>
      obtain rfl := Option.some.inj taken
      exact sound.aside rfl rfl rfl
  | listExpiredCb now nowTimer =>
      obtain ⟨-, listed⟩ := Option.ite_none_right_eq_some.mp taken
      obtain ⟨⟨manager, cbs⟩, -, rfl⟩ := Option.map_eq_some_iff.mp listed
      exact sound.aside rfl rfl rfl
  | run index =>
      obtain ⟨shared, ran, rfl⟩ := Option.map_eq_some_iff.mp taken
      exact sound.run own ran
  | timers op =>
      obtain ⟨-, used⟩ := Option.ite_none_right_eq_some.mp taken
      obtain ⟨manager, -, rfl⟩ := Option.map_eq_some_iff.mp used
      exact sound.aside rfl rfl rfl

end Own

/-- A timeout belongs to the call that has armed its timer. -/
theorem timeouts_own (function : Function) {data : function.waits.Data} {now ms : BitVec 64}
    {state : State function.waits} (run : Runs step Own (fresh data now ms) state) :
    Owned state :=
  (@Runs.invariant _ _ _ _ _ _ (fun state : State function.waits => Sound state)
    (fun _ _ _ sound own taken => sound.step own taken) run (.fresh data now ms)).owned

/-- Nothing has arrived, and the timeout is 100 ms. -/
def idle : State Function.readMessage.waits :=
  fresh ⟨[], false, false, false, 0⟩ 0 100

def greeting : KcpMessage :=
  Link.made 1 [7]

/-- The steps of a call. -/
def goes (call count : Nat) : List (Action Function.readMessage.waits) :=
  List.replicate count (.go call (List.replicate Reader.bufferSize 0, .success))

/-- The timer of a call fires, and the next one returns what arrives. -/
def patientRun : List (Action Function.readMessage.waits) :=
  List.flatten [[.begin 0 5, .listExpiredCb 100 9, .run 0], goes 0 3,
    [.begin 200 6, .change (.arrive greeting.payload)], goes 1 5]

def patient : State Function.readMessage.waits :=
  (replay step (fun state action => Own state action) patientRun idle).get (by decide +kernel)

theorem timeouts_own_twice :
    patient.shared.log = [.began 0, .fired 0, .timedOut 0, .began 1, .returned 1] ∧
      Reader.rcvQueue patient.shared.data = [] ∧ Reader.bReadError patient.shared.data = false ∧
      Owned patient :=
  ⟨by decide +kernel, by decide +kernel, by decide +kernel, timeouts_own .readMessage
    (.of_replay (fun _ _ => of_decide_eq_true) (Option.some_get _).symm)⟩

/-- The callback of a call runs after that call has cancelled its timer and has returned. -/
def lateRun : List (Action Function.readMessage.waits) :=
  List.flatten [[.begin 0 5, .listExpiredCb 100 9, .change (.arrive greeting.payload)], goes 0 5,
    [.run 0, .begin 101 6], goes 1 3]

def late : State Function.readMessage.waits :=
  (replay step (fun _ _ => true) lateRun idle).get (by decide +kernel)

/-- The next call reports a timeout at once. -/
theorem not_timeouts_own :
    ¬ ∀ (function : Function) (data : function.waits.Data) (now ms : BitVec 64)
      (state : State function.waits),
      Runs step (fun _ _ => True) (fresh data now ms) state → Owned state := by
  intro own
  have run : Runs step (fun _ _ => True) idle late :=
    .of_replay (fun _ _ _ => trivial) (Option.some_get _).symm
  have log : late.shared.log = [.began 0, .returned 0, .fired 0, .began 1] ++ [.timedOut 1] := by
    decide +kernel
  exact absurd (own .readMessage _ _ _ late run 1 _ _ log) (by decide)

end Timeouts

end Xten.Kcp
