import Xten.Db.MySql
import Xten.Std.Histories

/-!
# Transactions

What a transaction sends, and what it leaves behind on the connection.
-/

namespace Xten.MySQLTransaction

open MySQL (Server)
open Std.Histories

variable {server : Server} {transaction next : MySQLTransaction} {calls : List Call} {call : Call}
  {mysql : MySQL} {autoCommit : Bool} {sent : List Sent} {rt : Int}

section Sending

/-- A COMMIT or a ROLLBACK that succeeds. -/
def Sent.finishes (sent : Sent) : Prop :=
  (sent.origin = .commit ∨ sent.origin = .rollback) ∧ sent.rt = 0

instance (sent : Sent) : Decidable sent.finishes :=
  inferInstanceAs (Decidable (_ ∧ _))

/-- Only statements that have succeeded are committed, and nothing is sent after that, or after
they are rolled back. -/
structure AllOrNothing (sent : List Sent) : Prop where
  commits : ∀ earlier last later, sent = earlier ++ last :: later → last.origin = .commit →
    ∀ other ∈ earlier, other.rt = 0
  once : sent.countP (fun one => one.finishes) ≤ 1
  final : ∀ earlier last later, sent = earlier ++ last :: later → last.finishes → later = []

/-- What may be sent after other statements. -/
def admits (earlier : List Sent) (sent : Sent) : Prop :=
  (sent.origin = .commit → ∀ other ∈ earlier, other.rt = 0) ∧
    ∀ other ∈ earlier, ¬ other.finishes

theorem allOrNothing (admitted : Admitted admits sent) : AllOrNothing sent where
  commits earlier last later split isCommit := (admitted earlier last later split).1 isCommit
  once := by
    induction sent using List.reverseRecOn with
    | nil => exact Nat.zero_le 1
    | append_singleton sent last ih =>
        have barred := (admitted_concat.mp admitted).2.2
        have none : sent.countP (fun one => one.finishes) = 0 :=
          List.countP_eq_zero.mpr fun other member => by simpa using barred other member
        rw [List.countP_append, none, Nat.zero_add]
        exact List.countP_le_length
  final earlier last later split finishes := by
    cases later with
    | nil => rfl
    | cons other later =>
        have barred := (admitted (earlier ++ [last]) other later (by simp [split])).2
        exact absurd finishes (barred last (by simp))

/-- The flags say what has been sent. -/
structure Recorded (transaction : MySQLTransaction) : Prop where
  admitted : Admitted admits transaction.sent
  finished : transaction.isFinished ↔ ∃ sent ∈ transaction.sent, sent.finishes
  error : transaction.hasError ↔ ∃ sent ∈ transaction.sent, sent.rt ≠ 0

theorem Recorded.construct (mysql : MySQL) (autoCommit : Bool) :
    Recorded (construct mysql autoCommit) where
  admitted := .nil
  finished := by simp [MySQLTransaction.construct]
  error := by simp [MySQLTransaction.construct]

/-- Another statement is sent, which finishes the transaction or does not. -/
theorem Recorded.append {one : Sent} (recorded : Recorded transaction)
    (sent : next.sent = transaction.sent ++ [one]) (unfinished : transaction.isFinished = false)
    (clean : one.origin = .commit → transaction.hasError = false)
    (error : next.hasError ↔ transaction.hasError ∨ one.rt ≠ 0)
    (finished : next.isFinished ↔ one.finishes) : Recorded next := by
  have none : ¬ ∃ other ∈ transaction.sent, other.finishes := by
    rw [← recorded.finished, unfinished]
    exact Bool.false_ne_true
  constructor
  case admitted =>
    rw [sent, admitted_concat]
    refine ⟨recorded.admitted, fun isCommit other member => ?_, fun other member finishes => ?_⟩
    · by_contra failed
      have error := recorded.error.mpr ⟨other, member, failed⟩
      exact Bool.false_ne_true ((clean isCommit).symm.trans error)
    · exact none ⟨other, member, finishes⟩
  case finished =>
    rw [finished, sent]
    simp only [List.mem_append, List.mem_singleton, or_and_right, exists_or, exists_eq_left]
    exact (or_iff_right none).symm
  case error =>
    rw [error, recorded.error, sent]
    simp only [List.mem_append, List.mem_singleton, or_and_right, exists_or, exists_eq_left]

theorem send_eq (unfinished : transaction.isFinished = false) (origin : Origin)
    (sql : List Byte) (rt : Int) : transaction.send server origin sql rt =
      (rt, { transaction with
        mysql := transaction.mysql.execute server sql rt
        hasError := transaction.hasError || rt ≠ 0
        sent := transaction.sent ++ [⟨origin, sql, rt⟩] }) := by
  rw [send, unfinished]
  rfl

theorem Recorded.send {origin : Origin} {sql : List Byte} (recorded : Recorded transaction)
    (keeps : origin = .begin ∨ origin = .execute) :
    Recorded (transaction.send server origin sql rt).2 := by
  by_cases finished : transaction.isFinished
  · rw [MySQLTransaction.send, if_pos finished]
    exact recorded
  · rw [Bool.not_eq_true] at finished
    rw [send_eq finished]
    apply recorded.append rfl finished
    · rintro rfl
      simp at keeps
    · simp
    · obtain rfl | rfl := keeps
      all_goals simp [finished, Sent.finishes]

/-- What `commit` and `rollback` do when they send something. -/
theorem Recorded.ended {origin : Origin} {sql : List Byte} (recorded : Recorded transaction)
    (unfinished : transaction.isFinished = false) (ends : origin = .commit ∨ origin = .rollback)
    (clean : origin = .commit → transaction.hasError = false) :
    let (rt, transaction) := transaction.send server origin sql rt
    Recorded (if rt = 0 then (true, { transaction with isFinished := true })
      else (false, { transaction with hasError := true })).2 := by
  rw [send_eq unfinished]
  dsimp only
  split
  case isTrue zero =>
    apply recorded.append rfl unfinished clean
    · simp [zero]
    · simp [Sent.finishes, ends, zero]
  case isFalse failed =>
    apply recorded.append rfl unfinished clean
    · simp [failed]
    · simp [Sent.finishes, failed, unfinished]

theorem Recorded.commit (recorded : Recorded transaction) :
    Recorded (transaction.commit server rt).2 := by
  rw [MySQLTransaction.commit]
  split
  case isTrue => exact recorded
  case isFalse plain =>
    obtain ⟨unfinished, clean⟩ := not_or.mp plain
    rw [Bool.not_eq_true] at unfinished clean
    exact recorded.ended unfinished (.inl rfl) fun _ => clean

theorem Recorded.rollback (recorded : Recorded transaction) :
    Recorded (transaction.rollback server rt).2 := by
  rw [MySQLTransaction.rollback]
  split
  case isTrue => exact recorded
  case isFalse unfinished =>
    rw [Bool.not_eq_true] at unfinished
    exact recorded.ended unfinished (.inr rfl) nofun

theorem Recorded.take (recorded : Recorded transaction) (call : Call) :
    Recorded (transaction.take server call) := by
  cases call with
  | begin rt => exact recorded.send (.inl rfl)
  | execute sql rt => exact recorded.send (.inr rfl)
  | commit rt => exact recorded.commit
  | rollback rt => exact recorded.rollback

theorem Recorded.run (recorded : Recorded transaction) (calls : List Call) :
    Recorded (transaction.run server calls) := by
  induction calls generalizing transaction with
  | nil => exact recorded
  | cons call calls ih => exact ih (recorded.take call)

theorem Recorded.destroy (recorded : Recorded transaction) :
    Recorded (transaction.destroy server rt) := by
  rw [MySQLTransaction.destroy]
  split
  · exact recorded.commit
  · exact recorded.rollback

/-- `commit` reports success if a COMMIT has succeeded, or if the transaction had been finished
and nothing had failed. -/
theorem Recorded.committed (recorded : Recorded transaction)
    (reported : (transaction.commit server rt).1 = true) :
    (∃ sent ∈ (transaction.commit server rt).2.sent, sent.origin = .commit ∧ sent.rt = 0) ∨
      (∃ sent ∈ transaction.sent, sent.finishes) ∧ ∀ sent ∈ transaction.sent, sent.rt = 0 := by
  by_cases early : transaction.isFinished ∨ transaction.hasError
  · rw [MySQLTransaction.commit, if_pos early, Bool.not_eq_true'] at reported
    have finished : transaction.isFinished := early.resolve_right (by simp [reported])
    refine .inr ⟨recorded.finished.mp finished, fun sent member => ?_⟩
    by_contra failed
    exact Bool.false_ne_true (reported.symm.trans (recorded.error.mpr ⟨sent, member, failed⟩))
  · have unfinished : transaction.isFinished = false :=
      Bool.not_eq_true _ ▸ (not_or.mp early).1
    rw [MySQLTransaction.commit, if_neg early, send_eq unfinished] at reported ⊢
    dsimp only at reported ⊢
    split at reported
    case isTrue zero =>
      rw [if_pos zero]
      exact .inl ⟨_, List.mem_append_right _ (List.mem_singleton_self _), rfl, zero⟩
    case isFalse => cases reported

/-- Nothing of a transaction is committed, or all of it, in whatever order it is used. -/
theorem all_or_nothing (server : Server) (mysql : MySQL) (autoCommit : Bool) (calls : List Call)
    (rt : Int) :
    let transaction := (construct mysql autoCommit).run server calls
    AllOrNothing transaction.sent ∧ AllOrNothing (transaction.destroy server rt).sent ∧
      ((transaction.commit server rt).1 = true →
        (∃ sent ∈ (transaction.commit server rt).2.sent, sent.origin = .commit ∧ sent.rt = 0) ∨
          (∃ sent ∈ transaction.sent, sent.finishes) ∧
            ∀ sent ∈ transaction.sent, sent.rt = 0) := by
  have recorded : Recorded ((construct mysql autoCommit).run server calls) :=
    (Recorded.construct mysql autoCommit).run calls
  exact ⟨allOrNothing recorded.admitted, allOrNothing recorded.destroy.admitted,
    recorded.committed⟩

end Sending

section Sessions

/-- What becomes of the session by a statement of the caller's own. -/
def Call.own (server : Server) (opened : Bool) : Call → Bool
  | .begin rt => if rt = 0 then true else opened
  | .execute sql rt => if rt = 0 then (server.effect sql).getD opened else opened
  | .commit _ | .rollback _ => opened

def Call.isRollback : Call → Bool
  | .rollback _ => true
  | .begin _ | .execute _ _ | .commit _ => false

/-- A statement fails before `commit` or `rollback` is called, and `rollback` is not called
later. -/
def abandoned : List Call → Bool
  | [] => false
  | .begin rt :: calls | .execute _ rt :: calls =>
      if rt = 0 then abandoned calls else calls.all (!·.isRollback)
  | .commit _ :: _ | .rollback _ :: _ => false

/-- Every COMMIT and ROLLBACK that was sent has succeeded. -/
def Answered (transaction : MySQLTransaction) : Prop :=
  ∀ sent ∈ transaction.sent, sent.origin = .commit ∨ sent.origin = .rollback → sent.rt = 0

instance (transaction : MySQLTransaction) : Decidable (Answered transaction) :=
  inferInstanceAs (Decidable (∀ _ ∈ _, _))

/-- Nothing is sent any more. -/
theorem take_finished (finished : transaction.isFinished) (call : Call) :
    transaction.take server call = transaction := by
  cases call with
  | begin | execute => simp [take, begin, execute, send, finished]
  | commit | rollback => simp [take, commit, rollback, finished]

theorem run_finished (finished : transaction.isFinished) (calls : List Call) :
    transaction.run server calls = transaction := by
  induction calls with
  | nil => rfl
  | cons call calls ih =>
      rw [run, List.foldl_cons, take_finished finished]
      exact ih

theorem destroy_finished (finished : transaction.isFinished) :
    transaction.destroy server rt = transaction := by
  simp [destroy, commit, rollback, finished]

theorem send_extends (transaction : MySQLTransaction) (origin : Origin) (sql : List Byte) :
    transaction.sent <+: (transaction.send server origin sql rt).2.sent := by
  rw [send]
  split
  · exact List.prefix_rfl
  · exact List.prefix_append _ _

theorem commit_extends (transaction : MySQLTransaction) :
    transaction.sent <+: (transaction.commit server rt).2.sent := by
  rw [commit]
  split
  · exact List.prefix_rfl
  · dsimp only
    split
    all_goals exact send_extends transaction _ _

theorem rollback_extends (transaction : MySQLTransaction) :
    transaction.sent <+: (transaction.rollback server rt).2.sent := by
  rw [rollback]
  split
  · exact List.prefix_rfl
  · dsimp only
    split
    all_goals exact send_extends transaction _ _

theorem run_extends (transaction : MySQLTransaction) (calls : List Call) :
    transaction.sent <+: (transaction.run server calls).sent := by
  induction calls generalizing transaction with
  | nil => exact List.prefix_rfl
  | cons call calls ih =>
      apply List.IsPrefix.trans _ (ih (transaction.take server call))
      cases call with
      | begin rt | execute sql rt => exact send_extends transaction _ _
      | commit rt => exact commit_extends transaction
      | rollback rt => exact rollback_extends transaction

theorem destroy_extends (transaction : MySQLTransaction) :
    transaction.sent <+: (transaction.destroy server rt).sent := by
  rw [destroy]
  split
  · exact commit_extends transaction
  · exact rollback_extends transaction

/-- What was sent in time has been answered as well. -/
theorem Answered.early (answered : Answered ((transaction.run server calls).destroy server rt)) :
    Answered transaction := fun sent member =>
  answered sent (((run_extends transaction calls).trans (destroy_extends _)).subset member)

theorem commit_answered (unfinished : transaction.isFinished = false)
    (clean : transaction.hasError = false)
    (answered : Answered (transaction.commit server rt).2) :
    (transaction.commit server rt).2.isFinished ∧
      (transaction.commit server rt).2.mysql.opened = false := by
  rw [commit, if_neg (by simp [unfinished, clean]), send_eq unfinished] at answered ⊢
  dsimp only at answered ⊢
  have zero : rt = 0 := by
    apply answered ⟨.commit, ascii "COMMIT", rt⟩ _ (.inl rfl)
    split
    all_goals simp
  simp [zero, MySQL.execute, server.commits]

theorem rollback_answered (unfinished : transaction.isFinished = false)
    (answered : Answered (transaction.rollback server rt).2) :
    (transaction.rollback server rt).2.isFinished ∧
      (transaction.rollback server rt).2.mysql.opened = false := by
  rw [rollback, if_neg (by simp [unfinished]), send_eq unfinished] at answered ⊢
  dsimp only at answered ⊢
  have zero : rt = 0 := by
    apply answered ⟨.rollback, ascii "ROLLBACK", rt⟩ _ (.inr rfl)
    split
    all_goals simp
  simp [zero, MySQL.execute, server.rollsBack]

/-- What a transaction leaves behind when it is gone. -/
theorem destroyed_opened (answered : Answered ((transaction.run server calls).destroy server rt))
    (unfinished : transaction.isFinished = false) :
    ((transaction.run server calls).destroy server rt).mysql.opened = true ↔
      transaction.autoCommit ∧
      (if transaction.hasError then calls.all (!·.isRollback) else abandoned calls) ∧
      calls.foldl (Call.own server) transaction.mysql.opened := by
  induction calls generalizing transaction with
  | nil =>
      change (transaction.destroy server rt).mysql.opened = true ↔ _
      change Answered (transaction.destroy server rt) at answered
      rw [destroy] at answered ⊢
      split at answered
      case isTrue auto =>
        by_cases error : transaction.hasError
        · simp [auto, error, commit]
        · rw [Bool.not_eq_true] at error
          simp [auto, error, abandoned, (commit_answered unfinished error answered).2]
      case isFalse manual =>
        simp [manual, (rollback_answered unfinished answered).2]
  | cons call calls ih =>
      change Answered (((transaction.take server call).run server calls).destroy server rt)
        at answered
      change (((transaction.take server call).run server calls).destroy server rt).mysql.opened =
        true ↔ _
      have early := answered.early
      cases call with
      | begin rt' | execute sql rt' =>
          apply (ih answered (by simp [take, begin, execute, send, unfinished])).trans
          simp only [take, begin, execute, send_eq unfinished, MySQL.execute, List.foldl_cons,
            Call.own, server.begins]
          by_cases error : transaction.hasError
          all_goals
            by_cases zero : rt' = 0
            all_goals simp [error, zero, abandoned, Call.isRollback]
      | commit rt' =>
          by_cases error : transaction.hasError
          · have same : transaction.take server (.commit rt') = transaction := by
              simp [take, commit, error]
            rw [same] at answered ⊢
            apply (ih answered unfinished).trans
            simp [error, Call.isRollback, Call.own]
          · have ended := commit_answered unfinished (Bool.not_eq_true _ ▸ error) early
            dsimp only [take]
            rw [run_finished ended.1, destroy_finished ended.1, ended.2]
            simp [error, abandoned]
      | rollback rt' =>
          have ended := rollback_answered unfinished early
          dsimp only [take]
          rw [run_finished ended.1, destroy_finished ended.1, ended.2]
          simp [Call.isRollback, abandoned]

/-- No transaction is open, and the next user of the connection gets none either. -/
structure Vacant (mysql : MySQL) : Prop where
  closed : mysql.opened = false
  reused : ∀ now later answered accepted next,
    mysql.reuse now later answered accepted = some next → next.opened = false

/-- The pool opens no transaction. -/
theorem vacant_iff : Vacant mysql ↔ mysql.opened = false := by
  refine ⟨Vacant.closed, fun closed => ⟨closed, fun now later answered accepted next reused => ?_⟩⟩
  rw [MySQL.reuse] at reused
  split at reused
  case isTrue =>
    cases reused
    exact closed
  case isFalse =>
    simp only [MySQL.ping, MySQL.connect] at reused
    grind

/-- A transaction is open at first. -/
theorem create_opened {begun : Int}
    (created : create server mysql autoCommit begun = some transaction) :
    transaction.autoCommit = autoCommit ∧ transaction.isFinished = false ∧
      transaction.hasError = false ∧ transaction.mysql.opened = true := by
  rw [create, begin, send_eq rfl] at created
  dsimp only at created
  split at created
  case isTrue zero =>
    cases created
    have begins : begun = 0 := of_decide_eq_true zero
    simp [construct, begins, MySQL.execute, server.begins]
  case isFalse => cases created

/-- A transaction leaves the connection vacant exactly if it does not commit on its own, or is
not abandoned after a failure, or the caller has closed it by a statement. -/
theorem vacant_after {begun : Int}
    (created : create server mysql autoCommit begun = some transaction)
    (answered : Answered ((transaction.run server calls).destroy server rt)) :
    Vacant ((transaction.run server calls).destroy server rt).mysql ↔
      autoCommit = false ∨ abandoned calls = false ∨
        calls.foldl (Call.own server) true = false := by
  obtain ⟨auto, unfinished, clean, opened⟩ := create_opened created
  have left := destroyed_opened answered unfinished
  rw [auto, clean, opened, if_neg Bool.false_ne_true] at left
  rw [vacant_iff, ← Bool.not_eq_true, left]
  simp only [not_and_or, Bool.not_eq_true]

/-- A transaction on a connection to that server, as `Create` returns it. -/
def opened : MySQLTransaction :=
  (create MySQL.plainServer ((MySQL.construct []).connect true).2 true 0).get (by decide)

/-- A statement fails, and the caller rolls back. -/
def retried : List Call :=
  [.execute (ascii "INSERT INTO t VALUES (1)") 0, .execute (ascii "INSERT INTO t VALUES (1)") 1062,
    .commit 0, .rollback 0]

theorem vacant_after_retried :
    Vacant ((opened.run MySQL.plainServer retried).destroy MySQL.plainServer 0).mysql ↔
      true = false ∨ abandoned retried = false ∨
        retried.foldl (Call.own MySQL.plainServer) true = false :=
  vacant_after (Option.some_get _).symm (by decide)

/-- A statement fails, and the transaction is dropped. -/
def dropped : List Call :=
  [.execute (ascii "INSERT INTO t VALUES (1)") 1062]

/-- The next user of the connection is within the transaction. -/
theorem not_vacant_after : ¬ ∀ (server : Server) (mysql : MySQL) (autoCommit : Bool)
    (begun : Int) (transaction : MySQLTransaction) (calls : List Call) (rt : Int),
    create server mysql autoCommit begun = some transaction →
    Answered ((transaction.run server calls).destroy server rt) →
    Vacant ((transaction.run server calls).destroy server rt).mysql := by
  intro claim
  have vacant := claim MySQL.plainServer _ true 0 opened dropped 0 (Option.some_get _).symm (by decide)
  have reused := vacant.reused 0 0 true true _ rfl
  revert reused
  decide

end Sessions

end Xten.MySQLTransaction
