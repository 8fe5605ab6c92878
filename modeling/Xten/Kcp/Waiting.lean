import Xten.Fiber.Wakeups
import Xten.Kcp.Delivery

/-!
# Readers, senders and acceptors

`KcpSession` and `KcpListener`, with every step that a fiber takes at their mutexes and
conditions. Both are orderly programs: what is read, sent or accepted comes with its mutex, and
whatever ends a wait signals afterwards.
-/

namespace Xten.Kcp

open FiberProgram

namespace KcpSession

/-- A fiber mutex of a session, with its condition. -/
inductive Mutex where
  | kcpcb
  | sendque
deriving DecidableEq, Repr

/-- A session. Of the control block, `rcvQueue` are the payloads that `ikcp` has received in full.
A call of `notifyReadError` or `notifyWriteError` sets the flag as soon as it is the first, so that
`_b_read_error` and `_b_write_error` are part of the `once_flag`. -/
structure Data where
  rcvQueue : List (List Byte)
  bReadTimeout : Bool
  onceReadError : Once
  onceWriteError : Once
  onceClose : Once
  bClose : Bool
  sendque : List (Option KcpMessage)
  sem : Nat

namespace Data

variable (data : Data)

def bReadError : Bool :=
  data.onceReadError ≠ .idle

def bWriteError : Bool :=
  data.onceWriteError ≠ .idle

def reader : Reader where
  rcvQueue := data.rcvQueue
  bClose := data.bClose
  bReadError := data.bReadError
  bReadTimeout := data.bReadTimeout
  readErrorCode := 0

/-- `ikcp_recv`. What it makes room for in the queue is `moved`. -/
def ikcpRecv (moved : List (List Byte)) : Data :=
  match data.rcvQueue with
  | [] => data
  | payload :: rest =>
      if Reader.bufferSize < payload.length then data else { data with rcvQueue := rest ++ moved }

def initial : Data where
  rcvQueue := []
  bReadTimeout := false
  onceReadError := .idle
  onceWriteError := .idle
  onceClose := .idle
  bClose := false
  sendque := []
  sem := 1

end Data

inductive Name where
  | close
  /-- With what `ikcp_recv` makes room for. -/
  | readMessage (moved : List (List Byte))
  /-- With the payloads that a datagram makes complete, and what `ikcp_input` returns. -/
  | packetInput (arrived : List (List Byte)) (ret : Int)
  | sendMessage (msg : Option KcpMessage)
  | dopacketOutput
  /-- The loop of `dopacketOutput`, from its beginning. -/
  | sendRound
  | waitSender
  | update
  | notifyReadTimeout
  | notifyReadError

/-- When `ReadMessage` and `dopacketOutput` do not wait. -/
def conditions : Conditions Mutex Data where
  full mutex data :=
    match mutex with
    | .kcpcb => 0 < data.reader.ikcpPeeksize
    | .sendque => data.sendque ≠ []
  raised mutex data :=
    match mutex with
    | .kcpcb => data.bClose || data.bReadError || data.bReadTimeout
    | .sendque => data.bClose || data.bReadError || data.bWriteError
  untold data := data.onceReadError = .idle

abbrev Code := FiberProgram.Code Name Mutex Data

section Functions

/-- `_sem.wait()`, which goes on once there is a permit. -/
def semWait (next : Code) : Code :=
  .act (fun data => 0 < data.sem) (fun data => { data with sem := data.sem - 1 }) fun _ => next

/-- `_sem.post()`. -/
def semPost (next : Code) : Code :=
  .act (fun _ => true) (fun data => { data with sem := data.sem + 1 }) fun _ => next

def notifyReadError (next : Code) : Code :=
  .callOnce Data.onceReadError (fun once data => { data with onceReadError := once })
    (fun finish => .signal .kcpcb <| .signal .sendque finish) next

def notifyWriteError (next : Code) : Code :=
  .callOnce Data.onceWriteError (fun once data => { data with onceWriteError := once })
    (fun finish => .signal .kcpcb <| .signal .sendque finish) next

/-- `ikcp_update` or `ikcp_flush`, which calls `kcp_output_func`. A datagram may not go out. -/
def output (next : Code) : Code :=
  .ask fun fails => if fails then notifyWriteError next else next

def close (next : Code) : Code :=
  .callOnce Data.onceClose (fun once data => { data with onceClose := once })
    (fun finish =>
      .lock .kcpcb <| output <| output <| .unlock .kcpcb <|
      .act (fun _ => true) (fun data => { data with bClose := true }) fun _ =>
      .signal .sendque <| .signal .kcpcb finish) next

def readMessage (moved : List (List Byte)) : Code :=
  .lock .kcpcb <| .await .kcpcb <|
  .act (fun _ => true) (fun data => { data with bReadTimeout := false }) fun data =>
  if data.bReadTimeout then .unlock .kcpcb .done else
  .test Data.bClose (.unlock .kcpcb .done) <|
  .test Data.bReadError (.unlock .kcpcb .done) <|
  .act (fun data => 0 < data.reader.ikcpPeeksize) (fun data => data.ikcpRecv moved) fun data =>
  if Reader.bufferSize < data.reader.ikcpPeeksize then
    notifyReadError <| .unlock .kcpcb .done
  else
    .unlock .kcpcb <| .ask fun parses => if parses then .done else notifyReadError .done

def packetInput (arrived : List (List Byte)) (ret : Int) : Code :=
  .lock .kcpcb <|
  .act (fun _ => true) (fun data => { data with rcvQueue := data.rcvQueue ++ arrived }) fun _ =>
  if ret < 0 then notifyReadError <| .unlock .kcpcb .done
  else .unlock .kcpcb <| .signal .kcpcb .done

/-- `SendMessage`, and `ForceClose` for a null pointer. -/
def sendMessage (msg : Option KcpMessage) : Code :=
  .lock .sendque <|
  .act (fun _ => true) (fun data => { data with sendque := data.sendque ++ [msg] }) fun _ =>
  .unlock .sendque <| .signal .sendque .done

/-- `write`, by whether the message is serialized and whether `ikcp_send` takes it. -/
def write (yes no : Code) : Code :=
  .ask fun serializes =>
    if serializes then
      .lock .kcpcb <| .ask fun takes =>
        if takes then .unlock .kcpcb yes else notifyWriteError <| .unlock .kcpcb no
    else
      no

/-- Behind the loop of `dopacketOutput`. -/
def sendEnd : Code :=
  close <| semPost .done

def sendAll : List (Option KcpMessage) → Code
  | [] =>
      .test (fun data => data.bClose || data.bReadError || data.bWriteError) sendEnd
        (.goto .sendRound)
  | none :: _ => sendEnd
  | some _ :: rest => write (sendAll rest) sendEnd

def sendRound : Code :=
  .lock .sendque <| .await .sendque <|
  .act (fun _ => true) (fun data => { data with sendque := [] }) fun data =>
  .unlock .sendque <| sendAll data.sendque

def body : Name → Code
  | .close => close .done
  | .readMessage moved => readMessage moved
  | .packetInput arrived ret => packetInput arrived ret
  | .sendMessage msg => sendMessage msg
  | .dopacketOutput => semWait <| .goto .sendRound
  | .sendRound => sendRound
  | .waitSender => semWait .done
  | .update => .lock .kcpcb <| output <| .unlock .kcpcb .done
  | .notifyReadTimeout =>
      .act (fun _ => true) (fun data => { data with bReadTimeout := true }) fun _ =>
      .signal .kcpcb .done
  | .notifyReadError => notifyReadError .done

end Functions

section Orderly

variable {held : Mutex → Bool} {next : Code}

theorem signals_both {finish : Code} {untold : Bool} (mutex : Mutex) :
    (Code.signal Mutex.kcpcb <| .signal .sendque finish).Signals conditions mutex untold := by
  cases mutex with
  | kcpcb => exact .inl rfl
  | sendque => exact .inr (.inl rfl)

/-- An error that is announced once, to both conditions. -/
theorem orderly_notify {flag : Data → Once} {set : Once → Data → Data}
    (full : ∀ data once mutex, conditions.full mutex (set once data) → conditions.full mutex data)
    (last : ∀ data, flag data = .running →
      Code.Announced conditions held data (set .done data) next)
    (after : next.Orderly conditions held) :
    (Code.callOnce flag set (fun finish => .signal .kcpcb <| .signal .sendque finish)
      next).Orderly conditions held := by
  apply Code.Orderly.callOnce
  case first =>
    intro data finish _
    constructor
    case guarded => exact fun mutex now => .inl (full data _ mutex now)
    all_goals exact fun mutex => by intros; exact .inr (signals_both mutex)
  case last => exact last
  case inside => exact fun _ => id
  case after => exact after

theorem orderly_notifyReadError (after : next.Orderly conditions held) :
    (notifyReadError next).Orderly conditions held := by
  refine orderly_notify (fun _ _ _ => id) (fun data running => .quiet (fun _ => id) ?_ ?_) after
  all_goals simp [conditions, Data.bReadError, running, Data.bWriteError]

theorem orderly_notifyWriteError (after : next.Orderly conditions held) :
    (notifyWriteError next).Orderly conditions held := by
  refine orderly_notify (fun _ _ _ => id) (fun data running => .quiet (fun _ => id) ?_ rfl) after
  simp [conditions, Data.bReadError, running, Data.bWriteError]

/-- Before the first error, `notifyReadError` signals both conditions. -/
theorem signals_notifyReadError (mutex : Mutex) :
    (notifyReadError next).Signals conditions mutex true := by
  intro data untold _
  have idle : data.onceReadError = .idle := of_decide_eq_true untold
  simp only [idle, if_true]
  exact signals_both mutex

theorem orderly_semWait (after : next.Orderly conditions held) :
    (semWait next).Orderly conditions held :=
  fun _ _ => ⟨.quiet (fun _ => id) (fun _ => id) rfl, after⟩

theorem orderly_semPost (after : next.Orderly conditions held) :
    (semPost next).Orderly conditions held :=
  fun _ _ => ⟨.quiet (fun _ => id) (fun _ => id) rfl, after⟩

theorem orderly_output (after : next.Orderly conditions held) :
    (output next).Orderly conditions held
  | true => orderly_notifyWriteError after
  | false => after

theorem orderly_close (free : held .kcpcb = false) (after : next.Orderly conditions held) :
    (close next).Orderly conditions held := by
  apply Code.Orderly.callOnce
  case first => exact fun _ _ _ => .quiet (fun _ => id) (fun _ => id) rfl
  case last => exact fun _ _ => .quiet (fun _ => id) (fun _ => id) rfl
  case after => exact after
  case inside =>
    intro finish ordered
    refine ⟨free, orderly_output (orderly_output (.unlock (fun data _ => ⟨?_, ordered⟩) free))⟩
    refine ⟨fun _ => .inl, fun mutex _ => .inr ?_, fun _ => .inl rfl⟩
    cases mutex with
    | kcpcb => exact .inr (.inl rfl)
    | sendque => exact .inl rfl

/-- Only the queue of payloads is changed. -/
theorem Data.ikcpRecv_eq (data : Data) (moved : List (List Byte)) :
    ∃ rcvQueue, data.ikcpRecv moved = { data with rcvQueue := rcvQueue } := by
  unfold ikcpRecv
  split
  · exact ⟨data.rcvQueue, rfl⟩
  · split
    · exact ⟨data.rcvQueue, rfl⟩
    · exact ⟨_, rfl⟩

theorem orderly_readMessage (moved : List (List Byte)) :
    (readMessage moved).Orderly conditions fun _ => false := by
  have returned : (Code.unlock Mutex.kcpcb (.done : Code)).Orderly conditions
      (Function.update (fun _ => false) .kcpcb true) := .unlock rfl rfl
  refine ⟨rfl, rfl, fun data _ => ⟨.quiet (fun _ => id) ?_ rfl, ?_⟩⟩
  · rintro (_ | _)
    · intro raised
      change (data.bClose || data.bReadError || false) = true at raised
      change (data.bClose || data.bReadError || data.bReadTimeout) = true
      rw [Bool.or_false] at raised
      rw [raised, Bool.true_or]
    · exact id
  · dsimp only
    split
    · exact returned
    refine .test returned (.test returned fun data ready => ⟨?_, ?_⟩)
    · obtain ⟨queue, same⟩ := data.ikcpRecv_eq moved
      dsimp only
      rw [same]
      refine .quiet ?_ (fun _ => id) rfl
      rintro (_ | _)
      · exact fun _ => ready
      · exact id
    · dsimp only
      split
      · exact orderly_notifyReadError returned
      · refine .unlock (fun parses => ?_) rfl
        cases parses with
        | true => rfl
        | false => exact orderly_notifyReadError rfl

theorem orderly_packetInput (arrived : List (List Byte)) (ret : Int) :
    (packetInput arrived ret).Orderly conditions fun _ => false := by
  refine ⟨rfl, fun data _ => ⟨⟨?_, ?_, fun _ => .inl rfl⟩, ?_⟩⟩
  · rintro (_ | _) full
    · exact .inr rfl
    · exact .inl full
  · rintro (_ | _) busy
    · dsimp only
      split
      · by_cases idle : data.onceReadError = .idle
        · refine .inr ?_
          have untold : conditions.untold data = true := decide_eq_true idle
          change Code.Signals conditions .kcpcb (conditions.untold data) _
          rw [untold]
          exact signals_notifyReadError .kcpcb
        · refine .inl (.inr ?_)
          simp [conditions, Data.bReadError, idle]
      · exact .inr (.inl rfl)
    · exact .inl busy
  · dsimp only
    split
    · exact orderly_notifyReadError (.unlock rfl rfl)
    · exact .unlock rfl rfl

theorem orderly_sendMessage (msg : Option KcpMessage) :
    (sendMessage msg).Orderly conditions fun _ => false := by
  refine ⟨rfl, fun data _ => ⟨⟨?_, ?_, fun _ => .inl rfl⟩, ?_⟩⟩
  · rintro (_ | _) full
    · exact .inl full
    · exact .inr rfl
  · rintro (_ | _) busy
    · exact .inl busy
    · exact .inr (.inl rfl)
  · exact .unlock rfl rfl

theorem orderly_write {yes no : Code} (whenYes : yes.Orderly conditions fun _ => false)
    (whenNo : no.Orderly conditions fun _ => false) :
    (write yes no).Orderly conditions fun _ => false
  | false => whenNo
  | true => ⟨rfl, fun
      | true => .unlock whenYes rfl
      | false => orderly_notifyWriteError (.unlock whenNo rfl)⟩

theorem orderly_sendEnd : sendEnd.Orderly conditions fun _ => false :=
  orderly_close rfl (orderly_semPost rfl)

theorem orderly_sendAll (messages : List (Option KcpMessage)) :
    (sendAll messages).Orderly conditions fun _ => false := by
  induction messages with
  | nil => exact .test orderly_sendEnd rfl
  | cons message rest ih =>
      cases message with
      | none => exact orderly_sendEnd
      | some message => exact orderly_write ih orderly_sendEnd

theorem orderly_sendRound : sendRound.Orderly conditions fun _ => false := by
  refine ⟨rfl, rfl, fun data _ => ⟨.quiet ?_ (fun _ => id) rfl, .unlock (orderly_sendAll _) rfl⟩⟩
  rintro (_ | _) full
  · exact full
  · cases full

theorem orderly_body (name : Name) : (body name).Orderly conditions fun _ => false := by
  cases name with
  | close => exact orderly_close rfl rfl
  | readMessage moved => exact orderly_readMessage moved
  | packetInput arrived ret => exact orderly_packetInput arrived ret
  | sendMessage msg => exact orderly_sendMessage msg
  | dopacketOutput => exact orderly_semWait rfl
  | sendRound => exact orderly_sendRound
  | waitSender => exact orderly_semWait rfl
  | update => exact ⟨rfl, orderly_output (.unlock rfl rfl)⟩
  | notifyReadError => exact orderly_notifyReadError rfl
  | notifyReadTimeout =>
      refine fun data _ => ⟨⟨fun _ => .inl, ?_, fun _ => .inl rfl⟩, rfl⟩
      rintro (_ | _) busy
      · exact .inr (.inl rfl)
      · exact .inl busy

end Orderly

/-- All but the loop of `dopacketOutput` is called from outside. -/
def called : Name → Bool
  | .sendRound => false
  | _ => true

/-- A session. -/
def program : Program Name Mutex Data where
  toConditions := conditions
  body := body
  called := called
  orderly := orderly_body

/-- `ReadMessage` waits where it does in a reader that is on its own. -/
theorem waits_iff (data : Data) (buf : List Byte) (error : ReadErrno) :
    (data.reader.readMessage buf error).1 = .waits ↔ ¬ conditions.Busy .kcpcb data := by
  have idle : ¬ conditions.Busy .kcpcb data ↔ data.reader.ikcpPeeksize ≤ 0 ∧
      ¬ data.reader.bClose ∧ ¬ data.reader.bReadError ∧ ¬ data.reader.bReadTimeout := by
    change ¬ (decide (0 < data.reader.ikcpPeeksize) = true ∨
      (data.reader.bClose || data.reader.bReadError || data.reader.bReadTimeout) = true) ↔ _
    simp only [decide_eq_true_eq, Bool.or_eq_true, not_or, Int.not_lt, and_assoc]
  rw [idle, Reader.readMessage]
  split
  case isTrue waits => exact iff_of_true rfl waits
  case isFalse busy =>
    refine iff_of_false ?_ busy
    split
    · rintro ⟨⟩
    split
    · rintro ⟨⟩
    split
    · rintro ⟨⟩
    split
    case h_1 timeout close error _ none =>
      have peek : data.reader.ikcpPeeksize = -1 := by rw [Reader.ikcpPeeksize, none]
      exact absurd ⟨by rw [peek]; decide, close, error, timeout⟩ busy
    case h_2 =>
      split
      · rintro ⟨⟩
      · dsimp only
        split <;> rintro ⟨⟩

end KcpSession

namespace KcpListener.Waiting

/-- A fiber mutex of the listener. -/
inductive Mutex where
  | backlog
  | session
  | blacklist
deriving DecidableEq, Repr

/-- The listener, as far as `Accept` waits for it. Of the sessions in the backlog there are the
conversations. The first call of `Close` and that of `notifyReadError` set their flags as their
first step, so that these are part of the `once_flag`. -/
structure Data where
  acceptBacklog : List (BitVec 32)
  backlogSize : Nat
  convid : BitVec 32
  bTimeout : Bool
  onceClose : Once
  onceReadError : Once

namespace Data

variable (data : Data)

def bClose : Bool :=
  data.onceClose ≠ .idle

def bReadError : Bool :=
  data.onceReadError ≠ .idle

/-- A listener, with what `Listen` and the constructor have set. -/
def initial (backlogSize : Nat) (convid : BitVec 32) : Data where
  acceptBacklog := []
  backlogSize := backlogSize
  convid := convid
  bTimeout := false
  onceClose := .idle
  onceReadError := .idle

end Data

inductive Name where
  | close
  | accept
  | packetInput
  | onSessionClose
  | cleanupBlacklist
  | notifyTimeout
  | notifyReadError
deriving DecidableEq, Repr

/-- When `Accept` does not wait. -/
def conditions : Conditions Mutex Data where
  full mutex data :=
    match mutex with
    | .backlog => data.acceptBacklog ≠ []
    | .session | .blacklist => false
  raised mutex data :=
    match mutex with
    | .backlog => data.bTimeout || data.bReadError || data.bClose
    | .session | .blacklist => false
  untold _ := true

abbrev Code := FiberProgram.Code Name Mutex Data

/-- A section under a mutex whose effect is on nothing that `Accept` waits for. -/
def under (mutex : Mutex) (next : Code) : Code :=
  .lock mutex <| .unlock mutex next

/-- `Close`. The sockets are closed between the flag and the signal. -/
def close : Code :=
  .callOnce Data.onceClose (fun once data => { data with onceClose := once })
    (fun finish => .signal .backlog finish) .done

/-- `notifyReadError`. The sessions are told between the flag and the signal. -/
def notifyReadError : Code :=
  .callOnce Data.onceReadError (fun once data => { data with onceReadError := once })
    (fun finish => under .session <| .signal .backlog finish) .done

def accept : Code :=
  .lock .backlog <| .await .backlog <|
  .act (fun _ => true) (fun data => { data with bTimeout := false }) fun data =>
  if data.bTimeout then .unlock .backlog .done else
  .test Data.bReadError (.unlock .backlog .done) <|
  .test Data.bClose (.unlock .backlog .done) <|
  .act (fun data => data.acceptBacklog ≠ [])
    (fun data => { data with acceptBacklog := data.acceptBacklog.tail }) fun _ =>
  .unlock .backlog .done

/-- `packetInput` for a connect packet of a new address. -/
def connect : Code :=
  .lock .backlog <| .test (fun data => data.backlogSize ≤ data.acceptBacklog.length)
    (.unlock .backlog .done) <|
  .unlock .backlog <|
  .lock .session <| .ask fun full => .unlock .session <| if full then .done else
  .act (fun _ => true) (fun data => { data with convid := data.convid + 1 }) fun data =>
  under .session <|
  .lock .backlog <|
  .act (fun _ => true)
    (fun now => { now with acceptBacklog := now.acceptBacklog ++ [data.convid] }) fun _ =>
  .unlock .backlog <| .signal .backlog .done

/-- `packetInput`, by whether the address is in the blacklist, whether it has a session, whether
this is closed for the packet, and whether it is a connect packet. -/
def packetInput : Code :=
  .lock .blacklist <| .ask fun listed => .unlock .blacklist <| if listed then .done else
  .lock .session <| .ask fun existed => .unlock .session <|
  if existed then .ask fun closes => if closes then under .session .done else .done
  else .ask fun connects => if connects then connect else under .blacklist .done

def body : Name → Code
  | .close => close
  | .accept => accept
  | .packetInput => packetInput
  | .onSessionClose => under .session .done
  | .cleanupBlacklist => under .blacklist .done
  | .notifyTimeout =>
      .act (fun _ => true) (fun data => { data with bTimeout := true }) fun _ =>
      .signal .backlog .done
  | .notifyReadError => notifyReadError

section Orderly

variable {held : Mutex → Bool} {next : Code}

theorem orderly_under {mutex : Mutex} (free : held mutex = false)
    (after : next.Orderly conditions held) : (under mutex next).Orderly conditions held :=
  ⟨free, .unlock after free⟩

/-- A flag is set, with the signal to come. -/
theorem announced_raised {data changed : Data} (full : changed.acceptBacklog = data.acceptBacklog)
    (signals : next.Signals conditions .backlog true) :
    Code.Announced conditions held data changed next := by
  refine ⟨?_, ?_, fun _ => .inl rfl⟩
  · rintro (_ | _ | _) now
    · refine .inl ?_
      simpa [conditions, full] using now
    · cases now
    · cases now
  · rintro (_ | _ | _) busy
    · exact .inr signals
    · exact .inl busy
    · exact .inl busy

theorem orderly_close : close.Orderly conditions fun _ => false := by
  apply Code.Orderly.callOnce
  case first => exact fun _ _ _ => announced_raised rfl (.inl rfl)
  case last =>
    intro data running
    refine .quiet (fun _ => id) ?_ rfl
    simp [conditions, Data.bClose, running, Data.bReadError]
  case inside => exact fun _ => id
  case after => rfl

theorem orderly_notifyReadError : notifyReadError.Orderly conditions fun _ => false := by
  apply Code.Orderly.callOnce
  case first => exact fun _ _ _ => announced_raised rfl (.inl rfl)
  case last =>
    intro data running
    refine .quiet (fun _ => id) ?_ rfl
    simp [conditions, Data.bClose, running, Data.bReadError]
  case inside => exact fun _ ordered => orderly_under rfl ordered
  case after => rfl

theorem orderly_accept : accept.Orderly conditions fun _ => false := by
  have returned : (Code.unlock Mutex.backlog (.done : Code)).Orderly conditions
      (Function.update (fun _ => false) .backlog true) := .unlock rfl rfl
  refine ⟨rfl, rfl, fun data _ => ⟨.quiet (fun _ => id) ?_ rfl, ?_⟩⟩
  · rintro (_ | _ | _) raised
    · change (false || data.bReadError || data.bClose) = true at raised
      change (data.bTimeout || data.bReadError || data.bClose) = true
      rw [Bool.false_or] at raised
      rw [Bool.or_assoc, raised, Bool.or_true]
    · exact raised
    · exact raised
  · dsimp only
    split
    · exact returned
    refine .test returned (.test returned fun data ready => ⟨.quiet ?_ (fun _ => id) rfl, returned⟩)
    rintro (_ | _ | _) full
    · exact ready
    · exact full
    · exact full

theorem orderly_connect : connect.Orderly conditions fun _ => false := by
  refine ⟨rfl, .test (.unlock rfl rfl) (.unlock ⟨rfl, fun full => .unlock ?_ rfl⟩ rfl)⟩
  cases full with
  | true => rfl
  | false =>
      refine fun data _ => ⟨.quiet (fun _ => id) (fun _ => id) rfl, orderly_under rfl ⟨rfl, ?_⟩⟩
      refine fun now _ => ⟨⟨?_, ?_, fun _ => .inl rfl⟩, .unlock rfl rfl⟩
      · rintro (_ | _ | _) full
        · exact .inr rfl
        · exact .inl full
        · exact .inl full
      · rintro (_ | _ | _) busy
        · exact .inr (.inl rfl)
        · exact .inl busy
        · exact .inl busy

theorem orderly_packetInput : packetInput.Orderly conditions fun _ => false := by
  refine ⟨rfl, fun listed => .unlock ?_ rfl⟩
  cases listed with
  | true => rfl
  | false =>
      refine ⟨rfl, fun existed => .unlock ?_ rfl⟩
      cases existed with
      | true => exact fun | true => orderly_under rfl rfl | false => rfl
      | false => exact fun | true => orderly_connect | false => orderly_under rfl rfl

theorem orderly_body (name : Name) : (body name).Orderly conditions fun _ => false := by
  cases name with
  | close => exact orderly_close
  | accept => exact orderly_accept
  | packetInput => exact orderly_packetInput
  | onSessionClose | cleanupBlacklist => exact orderly_under rfl rfl
  | notifyTimeout => exact fun _ _ => ⟨announced_raised rfl (.inl rfl), rfl⟩
  | notifyReadError => exact orderly_notifyReadError

end Orderly

/-- The listener. -/
def program : Program Name Mutex Data where
  toConditions := conditions
  body := body
  called := fun _ => true
  orderly := orderly_body

end KcpListener.Waiting

end Xten.Kcp
