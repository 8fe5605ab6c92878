import Xten.Std.Interleaving
import Xten.Util.Strings

/-!
# RedisManager

The pools of redis connections: how `init` fills them on the constructing thread and on the
threads of the fox pool `redis`, and how connections leave and return. Each section under
`m_mutex` is one step. A connection is named by its address.
-/

namespace Xten.RedisManager

open Std.Interleaving

/-- `IRedis::Type`. -/
inductive Kind where
  | redis
  | redisCluster
  | foxRedis
  | foxRedisCluster
deriving DecidableEq, Repr

def Kind.fox : Kind → Bool
  | .redis | .redisCluster => false
  | .foxRedis | .foxRedisCluster => true

/-- `m_lastActiveTime` is not used of the fox kinds. -/
structure IRedis where
  name : List Byte
  type : Kind
  lastActiveTime : BitVec 64
deriving DecidableEq, Repr

/-- What is configured for a name. -/
abbrev Params := List (List Byte × List Byte)

def getValue (params : Params) (key : List Byte) : List Byte :=
  (params.lookup key).getD []

def Params.type (params : Params) : List Byte :=
  getValue params (ascii "type")

def Params.pool (params : Params) : Int :=
  TypeUtil.atoi (getValue params (ascii "pool"))

/-- What `init` makes for a type. -/
def kindOf (type : List Byte) : Option Kind :=
  if type = ascii "redis" then some .redis
  else if type = ascii "redis_cluster" then some .redisCluster
  else if type = ascii "fox_redis" then some .foxRedis
  else if type = ascii "fox_redis_cluster" then some .foxRedisCluster
  else none

/-- `redis.config`. -/
structure Conf where
  entries : List (List Byte × Params)
  names : (entries.map Prod.fst).Nodup

/-- The turns of the inner loop of `init`: for which name, and with which type. -/
def Conf.turns (conf : Conf) : List (List Byte × List Byte) :=
  conf.entries.flatMap fun entry => List.replicate entry.2.pool.toNat (entry.1, entry.2.type)

def Conf.total (conf : Conf) : BitVec 64 :=
  (conf.entries.map fun entry => BitVec.ofInt 64 entry.2.pool).sum

/-- A connection that `get` was asked for under a name. `recycles` says that `freeRedis` is called
when it is released. -/
structure Loan where
  name : List Byte
  redis : Nat
  recycles : Bool
deriving DecidableEq, Repr

/-- `turns` are those before `init`, and `tasks` the ones that it has dispatched. `checking` are
the connections that a call of `get` tries outside of the lock. -/
structure State where
  turns : List (List Byte × List Byte)
  tasks : List (List Byte × Kind)
  done : BitVec 64
  started : Bool
  datas : List Byte → List Nat
  redis : Nat → IRedis
  addresses : Nat
  checking : List Loan
  lent : List Loan

inductive Action where
  /-- `init` takes a turn of its loop. -/
  | turn (now : BitVec 64)
  /-- A thread of the pool runs a task of `init`. -/
  | task (index : Nat)
  /-- `init` returns. -/
  | start
  | get (name : List Byte)
  /-- `get` has tried a connection, if that was idle for long, and goes on. -/
  | check (index : Nat) (now later : BitVec 64) (ping reconnect : Bool)
  /-- The last pointer to a connection is gone. -/
  | release (index : Nat)

namespace State

variable (state : State)

def pushBack (name : List Byte) (redis : Nat) : State :=
  { state with datas := Function.update state.datas name (state.datas name ++ [redis]) }

/-- A new connection is filed under a name. -/
def make (name : List Byte) (redis : IRedis) : State :=
  { state with
    redis := Function.update state.redis state.addresses redis
    addresses := state.addresses + 1
    done := state.done + 1 }.pushBack name state.addresses

def turn (now : BitVec 64) : Option State :=
  match state.turns with
  | [] => none
  | (name, type) :: turns =>
      let state := { state with turns := turns }
      match kindOf type with
      | some kind =>
          if kind.fox then
            some { state with tasks := state.tasks ++ [(name, kind)] }
          else
            -- nobody calls `setName` here
            some (state.make name ⟨[], kind, now⟩)
      | none => some { state with done := state.done + 1 }

def task (index : Nat) : Option State :=
  (state.tasks[index]?).map fun (name, kind) =>
    { state with tasks := state.tasks.eraseIdx index }.make name ⟨name, kind, 0⟩

/-- `get` up to where it leaves the lock, or returns. -/
def get (name : List Byte) : State :=
  match state.datas name with
  | [] => state
  | redis :: rest =>
      let popped := { state with datas := Function.update state.datas name rest }
      if (state.redis redis).type.fox then
        let loan := ⟨name, redis, false⟩
        { popped with lent := state.lent ++ [loan] }.pushBack name redis
      else
        let loan := ⟨name, redis, true⟩
        { popped with checking := state.checking ++ [loan] }

/-- The rest of `get` for a connection that is not a fox. -/
def check (index : Nat) (now later : BitVec 64) (ping reconnect : Bool) : Option State :=
  (state.checking[index]?).map fun loan =>
    let state := { state with checking := state.checking.eraseIdx index }
    let redis := state.redis loan.redis
    if 30 < now - redis.lastActiveTime ∧ ping = false ∧ reconnect = false then
      state.pushBack loan.name loan.redis
    else
      { state with
        redis := Function.update state.redis loan.redis { redis with lastActiveTime := later }
        lent := state.lent ++ [loan] }

def freeRedis (redis : Nat) : State :=
  state.pushBack (state.redis redis).name redis

def release (index : Nat) : Option State :=
  (state.lent[index]?).map fun loan =>
    let state := { state with lent := state.lent.eraseIdx index }
    if loan.recycles then state.freeRedis loan.redis else state

end State

/-- Nobody has the manager before it is constructed. -/
def step (conf : Conf) (state : State) : Action → Option State
  | .turn now => state.turn now
  | .task index => state.task index
  | .start =>
      if state.turns = [] ∧ state.done = conf.total then some { state with started := true }
      else none
  | .get name => if state.started then some (state.get name) else none
  | .check index now later ping reconnect => state.check index now later ping reconnect
  | .release index => state.release index

/-- Before the manager is constructed. -/
def fresh (conf : Conf) : State where
  turns := conf.turns
  tasks := []
  done := 0
  started := false
  datas := fun _ => []
  redis := fun _ => ⟨[], .redis, 0⟩
  addresses := 0
  checking := []
  lent := []

end Xten.RedisManager
