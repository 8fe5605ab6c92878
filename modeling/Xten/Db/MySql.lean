import Xten.Util.Strings

/-!
# MySQL

A connection to a MySQL server, and the transactions that go through it. What the server answers
is given to the functions that ask it.
-/

namespace Xten

/-- What the statements that succeed do to the session: some open a transaction, some close it. -/
structure MySQL.Server where
  effect : List Byte → Option Bool
  begins : effect (ascii "BEGIN") = some true
  commits : effect (ascii "COMMIT") = some false
  rollsBack : effect (ascii "ROLLBACK") = some false

/-- A server that knows the three statements. -/
def MySQL.plainServer : MySQL.Server where
  effect sql :=
    if sql = ascii "BEGIN" then some true
    else if sql = ascii "COMMIT" ∨ sql = ascii "ROLLBACK" then some false
    else none
  begins := by decide
  commits := by decide
  rollsBack := by decide

/-- `connected` says that `m_mysql` is not null, and `opened` that its session has a transaction
open. -/
structure MySQL where
  params : List (List Byte × List Byte)
  connected : Bool
  opened : Bool
  lastUsedTime : BitVec 64
  hasError : Bool
  poolSize : Int
deriving DecidableEq, Repr

namespace MySQL

/-- `GetParamValue(m_params, "pool", 5)`. -/
def pool (params : List (List Byte × List Byte)) : Int :=
  ((params.lookup (ascii "pool")).bind lexicalCastInt).getD 5

/-- `new MySQL(args)`. -/
def construct (args : List (List Byte × List Byte)) : MySQL where
  params := args
  connected := false
  opened := false
  lastUsedTime := 0
  hasError := false
  poolSize := 10

variable (mysql : MySQL)

/-- `connect`, with whether `mysql_init` succeeds if it is called. -/
def connect (accepted : Bool) : Bool × MySQL :=
  if mysql.connected ∧ ¬ mysql.hasError then (true, mysql)
  else if accepted then
    (true, { mysql with
      connected := true, opened := false, hasError := false, poolSize := pool mysql.params })
  else (false, { mysql with hasError := true })

def isNeedCheck (now : BitVec 64) : Bool :=
  if now - mysql.lastUsedTime < 5 ∧ ¬ mysql.hasError then false else true

/-- `ping`, with whether `mysql_ping` is answered if it is called. -/
def ping (answered : Bool) : Bool × MySQL :=
  if ¬ mysql.connected then (false, mysql)
  else if answered then (true, { mysql with hasError := false })
  else (false, { mysql with hasError := true })

/-- `execute(sql)`, with what `mysql_query` returns. -/
def execute (server : Server) (sql : List Byte) (rt : Int) : MySQL :=
  if rt = 0 then
    { mysql with hasError := false, opened := (server.effect sql).getD mysql.opened }
  else
    { mysql with hasError := true }

/-- What `MySQLManager::get` does with a connection of the pool: it is used, or deleted. -/
def reuse (now later : BitVec 64) (answered accepted : Bool) : Option MySQL :=
  if ¬ mysql.isNeedCheck now then
    some { mysql with lastUsedTime := later }
  else
    let (alive, mysql) := mysql.ping answered
    if alive then
      some { mysql with lastUsedTime := later }
    else
      let (connected, mysql) := mysql.connect accepted
      if connected then some { mysql with lastUsedTime := later } else none

end MySQL

/-- Which function of a transaction sends a statement. -/
inductive MySQLTransaction.Origin where
  | begin
  | execute
  | commit
  | rollback
deriving DecidableEq, Repr

/-- A statement that has been sent, and what `mysql_query` returned for it. -/
structure MySQLTransaction.Sent where
  origin : MySQLTransaction.Origin
  sql : List Byte
  rt : Int
deriving DecidableEq, Repr

/-- `sent` is what has been sent for the transaction. -/
structure MySQLTransaction where
  mysql : MySQL
  autoCommit : Bool
  isFinished : Bool
  hasError : Bool
  sent : List MySQLTransaction.Sent
deriving DecidableEq, Repr

namespace MySQLTransaction

open MySQL (Server)

def construct (mysql : MySQL) (autoCommit : Bool) : MySQLTransaction where
  mysql := mysql
  autoCommit := autoCommit
  isFinished := false
  hasError := false
  sent := []

variable (server : Server) (transaction : MySQLTransaction)

/-- `execute`, whose overloads differ in how they are given the statement. The result is what
`mysql_query` returns, if it is called. -/
def send (origin : Origin) (sql : List Byte) (rt : Int) : Int × MySQLTransaction :=
  if transaction.isFinished then (-1, transaction)
  else
    (rt, { transaction with
      mysql := transaction.mysql.execute server sql rt
      hasError := transaction.hasError || rt ≠ 0
      sent := transaction.sent ++ [⟨origin, sql, rt⟩] })

def execute (sql : List Byte) (rt : Int) : Int × MySQLTransaction :=
  transaction.send server .execute sql rt

def begin (rt : Int) : Bool × MySQLTransaction :=
  let (rt, transaction) := transaction.send server .begin (ascii "BEGIN") rt
  (rt = 0, transaction)

def commit (rt : Int) : Bool × MySQLTransaction :=
  if transaction.isFinished ∨ transaction.hasError then (!transaction.hasError, transaction)
  else
    let (rt, transaction) := transaction.send server .commit (ascii "COMMIT") rt
    if rt = 0 then (true, { transaction with isFinished := true })
    else (false, { transaction with hasError := true })

def rollback (rt : Int) : Bool × MySQLTransaction :=
  if transaction.isFinished then (true, transaction)
  else
    let (rt, transaction) := transaction.send server .rollback (ascii "ROLLBACK") rt
    if rt = 0 then (true, { transaction with isFinished := true })
    else (false, { transaction with hasError := true })

/-- The destructor. -/
def destroy (rt : Int) : MySQLTransaction :=
  if transaction.autoCommit then (transaction.commit server rt).2
  else (transaction.rollback server rt).2

/-- `Create`. -/
def create (mysql : MySQL) (autoCommit : Bool) (rt : Int) : Option MySQLTransaction :=
  let (begun, transaction) := (construct mysql autoCommit).begin server rt
  if begun then some transaction else none

/-- A call on a transaction, with what `mysql_query` returns if it is asked. -/
inductive Call where
  | begin (rt : Int)
  | execute (sql : List Byte) (rt : Int)
  | commit (rt : Int)
  | rollback (rt : Int)
deriving DecidableEq, Repr

def take : Call → MySQLTransaction
  | .begin rt => (transaction.begin server rt).2
  | .execute sql rt => (transaction.execute server sql rt).2
  | .commit rt => (transaction.commit server rt).2
  | .rollback rt => (transaction.rollback server rt).2

def run (calls : List Call) : MySQLTransaction :=
  calls.foldl (take server) transaction

end MySQLTransaction

end Xten
