import Xten.Kcp.Waiting

/-!
# Readers, senders and acceptors are woken up

Nobody is left in `ReadMessage`, `dopacketOutput` or `Accept` with something to go on with, as
long as the last signal does not come between the test and the wait once a flag is set, and does
not find two fibers that wait. A last signal that does leaves somebody there for good.
-/

namespace Xten.Kcp

open Std.Interleaving FiberProgram

/-- What the fibers get to with a new session. -/
abbrev KcpSession.Reaches
    (allowed : Program.State Name Mutex Data → FiberSemphore.FiberId × Action Name → Prop)
    (state : Program.State Name Mutex Data) : Prop :=
  Runs program.step allowed (Program.fresh .initial) state

/-- What the fibers get to with a new listener. -/
abbrev KcpListener.Waiting.Reaches (backlogSize : Nat) (convid : BitVec 32)
    (allowed : Program.State Name Mutex Data → FiberSemphore.FiberId × Action Name → Prop)
    (state : Program.State Name Mutex Data) : Prop :=
  Runs program.step allowed (Program.fresh (.initial backlogSize convid)) state

/-- No wake-up is lost to the fibers that read or send, or to those that accept. -/
theorem no_wakeup_lost (backlogSize : Nat) (convid : BitVec 32) :
    (∀ mutex state, KcpSession.Reaches (Watched KcpSession.conditions mutex) state →
      Attended KcpSession.conditions mutex state) ∧
    ∀ state, KcpListener.Waiting.Reaches backlogSize convid
        (Watched KcpListener.Waiting.conditions .backlog) state →
      Attended KcpListener.Waiting.conditions .backlog state :=
  ⟨fun _ _ run => Program.attends run, fun _ run => Program.attends run⟩

/-- A fiber reads a message that arrives while it waits. -/
def readRun : List (FiberSemphore.FiberId × Action KcpSession.Name) :=
  List.flatten [[(0, .call (.readMessage []))], goes 0 4 true,
    [(1, .call (.packetInput [[1]] 0))], goes 1 5 true, goes 0 8 true]

def hasRead : Program.State KcpSession.Name KcpSession.Mutex KcpSession.Data :=
  (replay KcpSession.program.step (watches KcpSession.conditions .kcpcb) readRun
    (Program.fresh .initial)).get (by decide)

/-- A fiber accepts a session that is created while it waits. -/
def acceptRun : List (FiberSemphore.FiberId × Action KcpListener.Waiting.Name) :=
  List.flatten [[(0, .call .accept)], goes 0 4 true, [(1, .call .packetInput)], goes 1 6 false,
    goes 1 1 true, goes 1 14 false, goes 0 7 true]

def hasAccepted : Program.State KcpListener.Waiting.Name KcpListener.Waiting.Mutex
    KcpListener.Waiting.Data :=
  (replay KcpListener.Waiting.program.step (watches KcpListener.Waiting.conditions .backlog)
    acceptRun (Program.fresh (.initial 16 10000))).get (by decide)

theorem no_wakeup_lost_arrivals :
    hasRead.shared.data.rcvQueue = [] ∧ Attended KcpSession.conditions .kcpcb hasRead ∧
      hasAccepted.shared.data.convid = 10001 ∧ hasAccepted.shared.data.acceptBacklog = [] ∧
      Attended KcpListener.Waiting.conditions .backlog hasAccepted :=
  ⟨by decide,
    (no_wakeup_lost 16 10000).1 .kcpcb _ (.of_replay watches_sound (Option.some_get _).symm),
    by decide, by decide,
    (no_wakeup_lost 16 10000).2 _ (.of_replay watches_sound (Option.some_get _).symm)⟩

/-- A last signal of a session that comes at the wrong time leaves a fiber behind. -/
theorem KcpSession.unattended {mutex : Mutex} {state later : Program.State Name Mutex Data}
    {action : FiberSemphore.FiberId × Action Name} (run : Reaches (fun _ _ => True) state)
    (unwatched : ¬ Watched conditions mutex state action)
    (taken : program.step state action = some later) :
    ∃ last, Reaches (fun _ _ => True) last ∧ ¬ Attended conditions mutex last :=
  Program.unattended run unwatched taken

/-- So does one of the listener. -/
theorem KcpListener.Waiting.unattended {backlogSize : Nat} {convid : BitVec 32}
    {state later : Program.State Name Mutex Data} {action : FiberSemphore.FiberId × Action Name}
    (run : Reaches backlogSize convid (fun _ _ => True) state)
    (unwatched : ¬ Watched conditions .backlog state action)
    (taken : program.step state action = some later) :
    ∃ last, Reaches backlogSize convid (fun _ _ => True) last ∧
      ¬ Attended conditions .backlog last :=
  Program.unattended run unwatched taken

/-- `Close` has flushed, and sets its flag and signals between the test of a reader and its
wait. -/
def missedRead : List (FiberSemphore.FiberId × Action KcpSession.Name) :=
  List.flatten [[(1, .call .close)], goes 1 5 false, [(0, .call (.readMessage []))], goes 0 2 false,
    goes 1 4 false, goes 0 2 false]

/-- The same for the fiber that sends. -/
def missedSend : List (FiberSemphore.FiberId × Action KcpSession.Name) :=
  List.flatten [[(0, .call .dopacketOutput)], goes 0 4 false, [(1, .call .close)], goes 1 9 false,
    goes 0 2 false]

/-- `Close` of the listener does all of it between the test and the wait of `Accept`. -/
def missedAccept : List (FiberSemphore.FiberId × Action KcpListener.Waiting.Name) :=
  List.flatten [[(0, .call .accept)], goes 0 2 false, [(1, .call .close)], goes 1 3 false,
    goes 0 2 false]

theorem wakeups_lost :
    (¬ ∀ state, KcpSession.Reaches (fun _ _ => True) state →
      Attended KcpSession.conditions .kcpcb state) ∧
    (¬ ∀ state, KcpSession.Reaches (fun _ _ => True) state →
      Attended KcpSession.conditions .sendque state) ∧
    ¬ ∀ state, KcpListener.Waiting.Reaches 16 10000 (fun _ _ => True) state →
      Attended KcpListener.Waiting.conditions .backlog state := by
  refine ⟨missed missedRead 2 ?_ ?_, missed missedSend 2 ?_ ?_, missed missedAccept 2 ?_ ?_⟩
  all_goals decide

end Xten.Kcp
