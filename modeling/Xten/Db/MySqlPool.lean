import Xten.Db.MySql
import Xten.Std.Drawers
import Xten.Std.Interleaving

/-!
# MySQLManager

The threads that get connections, release them and delete those that have not been used for long.
Each section under `m_mutex` is one step of a thread, and each call of the server, and each
`delete`. A connection is named by its address, and an address is not used again.
-/

namespace Xten.MySQLManager

open Std.Interleaving

/-- A connection that has been handed out under a name. -/
structure Loan where
  name : List Byte
  mysql : Nat
deriving DecidableEq, Repr

/-- `homes` are the names that the connections were made under, and `deleted` is what has been
deleted. -/
structure Shared where
  conns : Std.Drawers (List Byte) Nat
  config : List Byte → Option (List (List Byte × List Byte))
  dbDefines : List Byte → Option (List (List Byte × List Byte))
  mysqls : Nat → MySQL
  addresses : Nat
  lent : List Loan
  homes : Nat → List Byte
  deleted : List Nat

/-- Where a thread is: outside; in `get`, with a connection from the pool, before it makes one, or
before that one connects; in `freeMySQL`; or before it deletes some connections. -/
inductive Caller where
  | outside
  | popped (name : List Byte) (mysql : Nat)
  | making (name : List Byte) (args : List (List Byte × List Byte))
  | connecting (name : List Byte) (mysql : Nat)
  | freeing (name : List Byte) (mysql : Nat)
  | deleting (mysqls : List Nat)
deriving DecidableEq, Repr

/-- What the user of a connection does with it. -/
inductive Usage where
  | execute (sql : List Byte) (rt : Int)
  | ping (answered : Bool)
  | connect (accepted : Bool)
deriving DecidableEq, Repr

def Usage.apply (server : MySQL.Server) (mysql : MySQL) : Usage → MySQL
  | .execute sql rt => mysql.execute server sql rt
  | .ping answered => (mysql.ping answered).2
  | .connect accepted => (mysql.connect accepted).2

inductive Action where
  | get (thread : Nat) (name : List Byte)
  /-- A thread goes on, with the clock and what the server answers. -/
  | go (thread : Nat) (now later : BitVec 64) (answered accepted : Bool)
  /-- The last pointer to a connection is gone. -/
  | release (thread index : Nat)
  | checkConnection (thread : Nat) (now : BitVec 64) (sec : Int)
  | use (index : Nat) (usage : Usage)
  | configure (name : List Byte) (args : Option (List (List Byte × List Byte)))
  | registerMySQL (name : List Byte) (args : List (List Byte × List Byte))

abbrev State := Config Shared Caller

namespace Shared

variable (shared : Shared)

/-- What `checkConnection` takes out of the pools. -/
def expired (now : BitVec 64) (sec : Int) (mysql : Nat) : Bool :=
  sec ≤ ((now - (shared.mysqls mysql).lastUsedTime).truncate 32).toInt

/-- `get` under the lock. -/
def get (name : List Byte) : Shared × Caller :=
  match shared.conns.contents name with
  | mysql :: rest => ({ shared with conns := .put name rest shared.conns }, .popped name mysql)
  | [] =>
      match (shared.config name).or (shared.dbDefines name) with
      | some args => (shared, .making name args)
      | none => (shared, .outside)

def lend (name : List Byte) (mysql : Nat) (used : MySQL) : Shared :=
  { shared with
    mysqls := Function.update shared.mysqls mysql used
    lent := shared.lent ++ [⟨name, mysql⟩] }

/-- `get` with a connection from the pool. -/
def reuse (name : List Byte) (mysql : Nat) (now later : BitVec 64) (answered accepted : Bool) :
    Shared × Caller :=
  match (shared.mysqls mysql).reuse now later answered accepted with
  | some used => (shared.lend name mysql used, .outside)
  | none => (shared, .deleting [mysql])

/-- `new MySQL(args)`. -/
def make (name : List Byte) (args : List (List Byte × List Byte)) : Shared × Caller :=
  ({ shared with
    mysqls := Function.update shared.mysqls shared.addresses (MySQL.construct args)
    homes := Function.update shared.homes shared.addresses name
    addresses := shared.addresses + 1 }, .connecting name shared.addresses)

/-- `get` with a new connection. -/
def connect (name : List Byte) (mysql : Nat) (now : BitVec 64) (accepted : Bool) :
    Shared × Caller :=
  let (connected, used) := (shared.mysqls mysql).connect accepted
  if connected then (shared.lend name mysql { used with lastUsedTime := now }, .outside)
  else (shared, .deleting [mysql])

/-- `(size_t)m->m_poolSize`. -/
def poolSize (mysql : Nat) : BitVec 64 :=
  BitVec.ofInt 64 (shared.mysqls mysql).poolSize

/-- `freeMySQL` up to where it leaves the lock. -/
def freeMySQL (name : List Byte) (mysql : Nat) : Shared × Caller :=
  let conns := shared.conns.contents name
  if (shared.mysqls mysql).connected ∧ conns.length < (shared.poolSize mysql).toNat then
    ({ shared with conns := .put name (conns ++ [mysql]) shared.conns }, .outside)
  else
    (shared, .deleting [mysql])

/-- A thread goes on. -/
def go (now later : BitVec 64) (answered accepted : Bool) : Caller → Option (Shared × Caller)
  | .outside => none
  | .popped name mysql => some (shared.reuse name mysql now later answered accepted)
  | .making name args => some (shared.make name args)
  | .connecting name mysql => some (shared.connect name mysql now accepted)
  | .freeing name mysql => some (shared.freeMySQL name mysql)
  | .deleting [] => some (shared, .outside)
  | .deleting (mysql :: mysqls) =>
      some ({ shared with deleted := shared.deleted ++ [mysql] }, .deleting mysqls)

/-- The last pointer to a connection goes to `freeMySQL`. -/
def release (index : Nat) : Option (Shared × Caller) :=
  (shared.lent[index]?).map fun loan =>
    ({ shared with lent := shared.lent.eraseIdx index }, .freeing loan.name loan.mysql)

/-- `checkConnection` under the lock. -/
def checkConnection (now : BitVec 64) (sec : Int) : Shared × Caller :=
  ({ shared with conns := .keep (fun mysql => !shared.expired now sec mysql) shared.conns },
    .deleting (shared.conns.all.filter (shared.expired now sec)))

def use (server : MySQL.Server) (index : Nat) (usage : Usage) : Option Shared :=
  (shared.lent[index]?).map fun loan =>
    { shared with mysqls :=
        Function.update shared.mysqls loan.mysql (usage.apply server (shared.mysqls loan.mysql)) }

end Shared

def step (server : MySQL.Server) (state : State) : Action → Option State
  | .get thread name =>
      if state.threads thread = .outside then
        let (shared, caller) := state.shared.get name
        some (state.put thread shared caller)
      else none
  | .go thread now later answered accepted =>
      (state.shared.go now later answered accepted (state.threads thread)).map
        fun (shared, caller) => state.put thread shared caller
  | .release thread index =>
      if state.threads thread = .outside then
        (state.shared.release index).map fun (shared, caller) => state.put thread shared caller
      else none
  | .checkConnection thread now sec =>
      if state.threads thread = .outside then
        let (shared, caller) := state.shared.checkConnection now sec
        some (state.put thread shared caller)
      else none
  | .use index usage => (state.shared.use server index usage).map fun shared =>
      { state with shared := shared }
  | .configure name args =>
      some { state with shared := { state.shared with
        config := Function.update state.shared.config name args } }
  | .registerMySQL name args =>
      some { state with shared := { state.shared with
        dbDefines := Function.update state.shared.dbDefines name (some args) } }

def fresh : State where
  shared :=
    { conns := []
      config := fun _ => none
      dbDefines := fun _ => none
      mysqls := fun _ => .construct []
      addresses := 0
      lent := []
      homes := fun _ => []
      deleted := [] }
  threads := fun _ => .outside

end Xten.MySQLManager
