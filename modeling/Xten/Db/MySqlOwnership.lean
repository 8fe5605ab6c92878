import Xten.Db.MySqlPool
import Xten.Std.Holdings

/-!
# Who has the connections of a MySQLManager

A connection is in a pool, handed out, or in the hands of one thread. It keeps the name that it
was made under.
-/

namespace Xten.MySQLManager

open Std.Interleaving

variable {server : MySQL.Server} {state next : State} {shared : Shared} {caller : Caller}
  {thread : Nat} {name : List Byte} {mysql : Nat} {now later : BitVec 64}
  {answered accepted : Bool}

/-- The connections that a thread has in one of the functions. -/
def Caller.mysqls : Caller → List Nat
  | .outside | .making _ _ => []
  | .popped _ mysql | .connecting _ mysql | .freeing _ mysql => [mysql]
  | .deleting mysqls => mysqls

/-- The name under which a thread has a connection. -/
def Caller.serves : Caller → Option (List Byte × Nat)
  | .popped name mysql | .connecting name mysql | .freeing name mysql => some (name, mysql)
  | .outside | .making _ _ | .deleting _ => none

/-- The connections that are in a pool, and those that are handed out. -/
def Shared.kept (shared : Shared) : List Nat :=
  shared.conns.all ++ shared.lent.map Loan.mysql

/-- A connection that has been made, and not been deleted. -/
def Shared.Live (shared : Shared) (mysql : Nat) : Prop :=
  mysql < shared.addresses ∧ mysql ∉ shared.deleted

/-- Each connection is in one place, under its name, and is deleted once. -/
structure Owned (state : State) : Prop where
  places : state.Places Shared.kept Caller.mysqls state.shared.Live
  pools : ∀ name, ∀ mysql ∈ state.shared.conns.contents name, state.shared.homes mysql = name
  lent : ∀ loan ∈ state.shared.lent, state.shared.homes loan.mysql = loan.name
  calls : ∀ thread name mysql, (state.threads thread).serves = some (name, mysql) →
    state.shared.homes mysql = name
  deleted : state.shared.deleted.Nodup
  known : ∀ mysql ∈ state.shared.deleted, mysql < state.shared.addresses

/-- A pool grows by one connection only, and not beyond the pool size of that. -/
def Sized (state next : State) : Prop :=
  ∀ name, (state.shared.conns.contents name).length < (next.shared.conns.contents name).length →
    ∃ mysql, next.shared.conns.contents name = state.shared.conns.contents name ++ [mysql] ∧
      ((next.shared.conns.contents name).length : Int) ≤ (state.shared.mysqls mysql).poolSize

/-- No connection is put back that has a negative pool size. -/
def Bounded (state : State) : Action → Prop
  | .go thread _ _ _ _ =>
      match state.threads thread with
      | .freeing name mysql => (state.shared.freeMySQL name mysql).2 = .outside →
          0 ≤ (state.shared.mysqls mysql).poolSize
      | _ => True
  | _ => True

section Moving

theorem Caller.mem_of_serves (serves : caller.serves = some (name, mysql)) :
    mysql ∈ caller.mysqls := by
  cases caller with
  | popped | connecting | freeing =>
      cases serves
      exact List.mem_singleton_self _
  | outside | making | deleting => cases serves

theorem Owned.live_kept (owned : Owned state) (kept : mysql ∈ state.shared.kept) :
    state.shared.Live mysql :=
  (owned.places.complete mysql).mpr (.inl kept)

theorem Owned.live_held (owned : Owned state) (held : mysql ∈ (state.threads thread).mysqls) :
    state.shared.Live mysql :=
  (owned.places.complete mysql).mpr (.inr ⟨thread, held⟩)

/-- The names of the connections that the others have are as before. -/
theorem Owned.calls_put (owned : Owned state)
    (same : ∀ mysql, state.shared.Live mysql → shared.homes mysql = state.shared.homes mysql)
    (serves : ∀ name mysql, caller.serves = some (name, mysql) → shared.homes mysql = name) :
    ∀ other name mysql,
      ((state.put thread shared caller).threads other).serves = some (name, mysql) →
        (state.put thread shared caller).shared.homes mysql = name := by
  intro other name mysql now
  obtain ⟨-, current⟩ | ⟨-, current⟩ := state.put_cases thread shared caller other
  all_goals rw [current] at now
  · exact serves name mysql now
  · exact (same mysql (owned.live_held (Caller.mem_of_serves now))).trans
      (owned.calls other name mysql now)

/-- A thread passes connections on. -/
theorem Owned.move (owned : Owned state)
    (perm : (shared.kept ++ caller.mysqls).Perm
      (state.shared.kept ++ (state.threads thread).mysqls))
    (addresses : shared.addresses = state.shared.addresses)
    (homes : shared.homes = state.shared.homes)
    (deleted : shared.deleted = state.shared.deleted)
    (pools : ∀ name, ∀ mysql ∈ shared.conns.contents name, state.shared.homes mysql = name)
    (lent : ∀ loan ∈ shared.lent, state.shared.homes loan.mysql = loan.name)
    (serves : ∀ name mysql, caller.serves = some (name, mysql) → state.shared.homes mysql = name) :
    Owned (state.put thread shared caller) where
  places := owned.places.move perm fun mysql => by
    rw [Config.put_shared, Shared.Live, Shared.Live, addresses, deleted]
  pools := homes.symm ▸ pools
  lent := homes.symm ▸ lent
  calls := owned.calls_put (fun _ _ => congrFun homes _) (homes.symm ▸ serves)
  deleted := deleted.symm ▸ owned.deleted
  known := by
    rw [Config.put_shared, deleted, addresses]
    exact owned.known

/-- A thread without connections goes on without any. -/
theorem Owned.stay (owned : Owned state) (none : (state.threads thread).mysqls = [])
    (still : caller.mysqls = []) (serves : caller.serves = Option.none) :
    Owned (state.put thread state.shared caller) := by
  apply owned.move _ rfl rfl rfl owned.pools owned.lent
  · rw [serves]
    exact fun _ _ => nofun
  · rw [none, still]

theorem Owned.get (owned : Owned state) (outside : state.threads thread = .outside)
    (name : List Byte) : Owned (state.put thread (state.shared.get name).1
      (state.shared.get name).2) := by
  have none : (state.threads thread).mysqls = [] := by
    rw [outside]
    rfl
  rw [Shared.get]
  split
  case h_1 mysql rest found =>
    refine owned.move ?_ rfl rfl rfl (fun other mysql member => ?_) owned.lent ?_
    · rw [none, List.append_nil]
      exact List.perm_append_comm.trans ((Std.Drawers.perm_pop found).append_right _)
    · obtain ⟨rfl, inRest⟩ | old := Std.Drawers.mem_put member
      · exact owned.pools other mysql (found ▸ List.mem_cons_of_mem _ inRest)
      · exact owned.pools other mysql old
    · rintro _ _ ⟨⟩
      exact owned.pools name mysql (found ▸ List.mem_cons_self)
  case h_2 =>
    split
    all_goals exact owned.stay none rfl rfl

/-- A thread hands out the connection that it has. -/
theorem Owned.lend {used : MySQL} (owned : Owned state)
    (serves : (state.threads thread).serves = some (name, mysql))
    (has : (state.threads thread).mysqls = [mysql]) :
    Owned (state.put thread (state.shared.lend name mysql used) .outside) := by
  refine owned.move ?_ rfl rfl rfl owned.pools (fun loan member => ?_) fun _ _ => nofun
  · rw [has]
    simp [Shared.kept, Shared.lend, Caller.mysqls]
  · obtain old | new := List.mem_append.mp member
    · exact owned.lent loan old
    · rw [List.mem_singleton.mp new]
      exact owned.calls thread name mysql serves

/-- A thread is to delete what it has. -/
theorem Owned.drop (owned : Owned state) :
    Owned (state.put thread state.shared (.deleting (state.threads thread).mysqls)) :=
  owned.move (.refl _) rfl rfl rfl owned.pools owned.lent fun _ _ => nofun

theorem Owned.make {args : List (List Byte × List Byte)} (owned : Owned state)
    (none : (state.threads thread).mysqls = []) :
    Owned (state.put thread (state.shared.make name args).1 (state.shared.make name args).2) := by
  have other (mysql : Nat) (live : state.shared.Live mysql) :
      (state.shared.make name args).1.homes mysql = state.shared.homes mysql :=
    Function.update_of_ne (Nat.ne_of_lt live.1) _ _
  constructor
  case places =>
    apply @Config.Places.put _ _ _ _ _ _ _ _ _ _ _ [state.shared.addresses] [] owned.places
    · intro mysql member live
      rw [List.mem_singleton.mp member] at live
      exact Nat.lt_irrefl _ live.1
    · exact List.nodup_singleton _
    · rw [none, List.append_nil]
      exact List.perm_append_singleton _ _
    · intro mysql
      have unknown : state.shared.addresses ∉ state.shared.deleted := fun member =>
        Nat.lt_irrefl _ (owned.known _ member)
      simp only [Config.put_shared, Shared.Live, Shared.make, Nat.lt_succ_iff_lt_or_eq,
        List.mem_singleton, List.not_mem_nil, not_false_eq_true, and_true]
      grind
  case pools =>
    intro one mysql member
    have live := owned.live_kept (List.mem_append_left _ (Std.Drawers.mem_all member))
    exact (other mysql live).trans (owned.pools one mysql member)
  case lent =>
    intro loan member
    have live := owned.live_kept (List.mem_append_right _ (List.mem_map_of_mem member))
    exact (other loan.mysql live).trans (owned.lent loan member)
  case calls =>
    apply owned.calls_put other
    rintro _ _ ⟨⟩
    exact Function.update_self _ _ _
  case deleted => exact owned.deleted
  case known => exact fun mysql member => Nat.lt_succ_of_lt (owned.known mysql member)

theorem Owned.free (owned : Owned state)
    (freeing : state.threads thread = .freeing name mysql) :
    Owned (state.put thread (state.shared.freeMySQL name mysql).1
      (state.shared.freeMySQL name mysql).2) := by
  have has : (state.threads thread).mysqls = [mysql] := by
    rw [freeing]
    rfl
  have home : state.shared.homes mysql = name :=
    owned.calls thread name mysql (by rw [freeing]; rfl)
  rw [Shared.freeMySQL]
  split
  case isTrue =>
    refine owned.move ?_ rfl rfl rfl (fun other one member => ?_) owned.lent ?_
    · rw [has, Caller.mysqls, List.append_nil]
      exact ((Std.Drawers.perm_push name mysql _).append_right _).trans
        (List.perm_append_singleton _ _).symm
    · obtain ⟨rfl, inPool⟩ | old := Std.Drawers.mem_put member
      · obtain old | new := List.mem_append.mp inPool
        · exact owned.pools other one old
        · rw [List.mem_singleton.mp new]
          exact home
      · exact owned.pools other one old
    · rintro _ _ ⟨⟩
  case isFalse =>
    rw [← has]
    exact owned.drop

theorem Owned.delete {mysqls : List Nat} (owned : Owned state)
    (deleting : state.threads thread = .deleting (mysql :: mysqls)) :
    Owned (state.put thread { state.shared with deleted := state.shared.deleted ++ [mysql] }
      (.deleting mysqls)) := by
  have live : state.shared.Live mysql := by
    have held : mysql ∈ (state.threads thread).mysqls := deleting ▸ List.mem_cons_self
    exact owned.live_held held
  constructor
  case places =>
    apply @Config.Places.put _ _ _ _ _ _ _ _ _ _ _ [] [mysql] owned.places
    · exact fun _ member => absurd member List.not_mem_nil
    · exact List.nodup_nil
    · rw [deleting]
      show (mysql :: (state.shared.kept ++ mysqls)).Perm (state.shared.kept ++ mysql :: mysqls)
      exact List.perm_middle.symm
    · intro one
      simp only [Config.put_shared, Shared.Live, List.mem_append, List.mem_singleton,
        List.not_mem_nil, or_false, not_or, and_assoc]
  case pools => exact owned.pools
  case lent => exact owned.lent
  case calls => exact owned.calls_put (fun _ _ => rfl) fun _ _ => nofun
  case deleted =>
    exact List.nodup_append.mpr ⟨owned.deleted, List.nodup_singleton _, fun one old other new =>
      List.mem_singleton.mp new ▸ fun same => live.2 (same ▸ old)⟩
  case known =>
    intro one member
    obtain old | new := List.mem_append.mp member
    · exact owned.known one old
    · rw [List.mem_singleton.mp new]
      exact live.1

theorem Owned.release {index : Nat} {loan : Loan} (owned : Owned state)
    (outside : state.threads thread = .outside) (found : state.shared.lent[index]? = some loan) :
    Owned (state.put thread { state.shared with lent := state.shared.lent.eraseIdx index }
      (.freeing loan.name loan.mysql)) := by
  refine owned.move ?_ rfl rfl rfl owned.pools (fun other member => ?_) ?_
  · obtain ⟨bound, rfl⟩ := List.getElem?_eq_some_iff.mp found
    have perm := (List.getElem_cons_eraseIdx_perm bound).map Loan.mysql
    rw [outside, Caller.mysqls, List.append_nil, Caller.mysqls, Shared.kept, List.append_assoc]
    exact ((List.perm_append_singleton _ _).trans perm).append_left _
  · exact owned.lent other (List.mem_of_mem_eraseIdx member)
  · rintro _ _ ⟨⟩
    exact owned.lent loan (List.mem_of_getElem? found)

theorem Owned.checkConnection {sec : Int} (owned : Owned state)
    (outside : state.threads thread = .outside) :
    Owned (state.put thread (state.shared.checkConnection now sec).1
      (state.shared.checkConnection now sec).2) := by
  refine owned.move ?_ rfl rfl rfl (fun other mysql member => ?_) owned.lent fun _ _ => nofun
  · rw [outside]
    dsimp only [Shared.kept, Shared.checkConnection, Caller.mysqls]
    rw [Std.Drawers.all_keep, List.append_nil, List.append_assoc]
    apply (List.perm_append_comm.append_left _).trans
    rw [← List.append_assoc]
    apply List.Perm.append_right
    apply List.perm_append_comm.trans
    exact List.filter_append_perm _ _
  · rw [Shared.checkConnection, Std.Drawers.contents_keep] at member
    exact owned.pools other mysql (List.mem_of_mem_filter member)

theorem Owned.go (owned : Owned state)
    (taken : state.shared.go now later answered accepted (state.threads thread) =
      some (shared, caller)) : Owned (state.put thread shared caller) := by
  have drops {mysql : Nat} (has : (state.threads thread).mysqls = [mysql]) :
      Owned (state.put thread state.shared (.deleting [mysql])) := has ▸ owned.drop
  cases place : state.threads thread with
  | outside =>
      rw [place] at taken
      cases taken
  | popped name mysql =>
      have serves : (state.threads thread).serves = some (name, mysql) := place ▸ rfl
      have has : (state.threads thread).mysqls = [mysql] := place ▸ rfl
      rw [place] at taken
      simp only [Shared.go, Shared.reuse] at taken
      split at taken
      all_goals cases taken
      · exact owned.lend serves has
      · exact drops has
  | making name args =>
      rw [place] at taken
      cases taken
      exact owned.make (place ▸ rfl)
  | connecting name mysql =>
      have serves : (state.threads thread).serves = some (name, mysql) := place ▸ rfl
      have has : (state.threads thread).mysqls = [mysql] := place ▸ rfl
      rw [place] at taken
      simp only [Shared.go, Shared.connect] at taken
      split at taken
      all_goals cases taken
      · exact owned.lend serves has
      · exact drops has
  | freeing name mysql =>
      rw [place] at taken
      have free := owned.free place
      rwa [Option.some.inj taken] at free
  | deleting mysqls =>
      rw [place] at taken
      cases mysqls with
      | nil =>
          cases taken
          exact owned.stay (place ▸ rfl) rfl rfl
      | cons mysql mysqls =>
          cases taken
          exact owned.delete place

/-- Each step keeps the connections where they belong. -/
theorem Owned.step {action : Action} (owned : Owned state)
    (taken : MySQLManager.step server state action = some next) : Owned next := by
  cases action with
  | get thread name =>
      obtain ⟨outside, same⟩ := Option.ite_none_right_eq_some.mp taken
      obtain rfl := Option.some.inj same
      exact owned.get outside name
  | go thread now later answered accepted =>
      obtain ⟨⟨shared, caller⟩, went, rfl⟩ := Option.map_eq_some_iff.mp taken
      exact owned.go went
  | release thread index =>
      obtain ⟨outside, same⟩ := Option.ite_none_right_eq_some.mp taken
      obtain ⟨⟨shared, caller⟩, released, rfl⟩ := Option.map_eq_some_iff.mp same
      obtain ⟨loan, found, same⟩ := Option.map_eq_some_iff.mp released
      cases same
      exact owned.release outside found
  | checkConnection thread now sec =>
      obtain ⟨outside, same⟩ := Option.ite_none_right_eq_some.mp taken
      obtain rfl := Option.some.inj same
      exact owned.checkConnection outside
  | use index usage =>
      obtain ⟨shared, used, rfl⟩ := Option.map_eq_some_iff.mp taken
      obtain ⟨loan, -, rfl⟩ := Option.map_eq_some_iff.mp used
      exact ⟨⟨owned.places.exclusive, owned.places.distinct, owned.places.complete⟩, owned.pools,
        owned.lent, owned.calls, owned.deleted, owned.known⟩
  | configure name args =>
      cases taken
      exact ⟨⟨owned.places.exclusive, owned.places.distinct, owned.places.complete⟩, owned.pools,
        owned.lent, owned.calls, owned.deleted, owned.known⟩
  | registerMySQL name args =>
      cases taken
      exact ⟨⟨owned.places.exclusive, owned.places.distinct, owned.places.complete⟩, owned.pools,
        owned.lent, owned.calls, owned.deleted, owned.known⟩

theorem Owned.fresh : Owned fresh where
  places := .initial rfl (fun _ => rfl) fun _ live => Nat.not_lt_zero _ live.1
  pools _ _ member := absurd member List.not_mem_nil
  lent _ member := absurd member List.not_mem_nil
  calls _ _ _ := nofun
  deleted := List.nodup_nil
  known _ member := absurd member List.not_mem_nil

end Moving

section Growing

/-- The pools as they are, or with less. -/
def Lesser (state next : State) : Prop :=
  ∀ name, (next.shared.conns.contents name).length ≤ (state.shared.conns.contents name).length

theorem Lesser.sized (lesser : Lesser state next) : Sized state next := fun name grown =>
  absurd grown (Nat.not_lt_of_le (lesser name))

theorem Lesser.get (outside : (state.shared.get name).1.conns = next.shared.conns) :
    Lesser state next := by
  intro other
  rw [← outside, Shared.get]
  split
  case h_1 mysql rest found =>
    by_cases same : other = name
    · subst same
      rw [Std.Drawers.contents_put_self, found]
      exact Nat.le_succ _
    · rw [Std.Drawers.contents_put_other same]
  case h_2 =>
    split
    all_goals exact Nat.le_refl _

/-- A connection is put back, or nothing is. -/
theorem freeMySQL_cases (shared : Shared) (name : List Byte) (mysql : Nat) :
    (shared.freeMySQL name mysql).2 ≠ .outside ∧ (shared.freeMySQL name mysql).1 = shared ∨
      (shared.freeMySQL name mysql).2 = .outside ∧
        (shared.conns.contents name).length < (shared.poolSize mysql).toNat ∧
        (shared.freeMySQL name mysql).1.conns =
          .put name (shared.conns.contents name ++ [mysql]) shared.conns := by
  rw [Shared.freeMySQL]
  split
  case isTrue room => exact .inr ⟨rfl, room.2, rfl⟩
  case isFalse => exact .inl ⟨by rintro ⟨⟩, rfl⟩

/-- What `size_t` makes of a pool size is not larger, unless that is negative. -/
theorem poolSize_le (positive : 0 ≤ (shared.mysqls mysql).poolSize) :
    ((shared.poolSize mysql).toNat : Int) ≤ (shared.mysqls mysql).poolSize := by
  rw [Shared.poolSize, BitVec.toNat_ofInt, Int.toNat_of_nonneg (Int.emod_nonneg _ (by decide))]
  omega

theorem freeMySQL_sized (freed : next.shared = (state.shared.freeMySQL name mysql).1) :
    Sized state next ↔ ((state.shared.freeMySQL name mysql).2 = .outside →
      0 ≤ (state.shared.mysqls mysql).poolSize) := by
  obtain ⟨full, same⟩ | ⟨back, room, pushed⟩ := freeMySQL_cases state.shared name mysql
  · refine iff_of_true ?_ fun outside => absurd outside full
    apply Lesser.sized
    intro other
    rw [freed, same]
  · have now : next.shared.conns.contents name = state.shared.conns.contents name ++ [mysql] := by
      rw [freed, pushed, Std.Drawers.contents_put_self]
    constructor
    · intro sized _
      obtain ⟨one, grown, size⟩ := sized name (by simp [now])
      obtain rfl : mysql = one := by simpa [now] using grown
      exact Int.le_trans (Int.natCast_nonneg _) size
    · intro bounded other grown
      have same : other = name := by
        by_contra apart
        rw [freed, pushed, Std.Drawers.contents_put_other apart] at grown
        exact Nat.lt_irrefl _ grown
      subst same
      refine ⟨mysql, now, ?_⟩
      have size := poolSize_le (bounded back)
      rw [now, List.length_append, List.length_singleton]
      omega

/-- Only `freeMySQL` changes the pools in the further course of a call. -/
theorem go_conns {result : Shared} {before after : Caller}
    (went : shared.go now later answered accepted before = some (result, after))
    (apart : ∀ name mysql, before ≠ .freeing name mysql) : result.conns = shared.conns := by
  cases before with
  | outside => cases went
  | popped name mysql =>
      simp only [Shared.go, Shared.reuse] at went
      split at went
      all_goals
        obtain ⟨rfl, -⟩ := Prod.mk.inj (Option.some.inj went)
        rfl
  | connecting name mysql =>
      simp only [Shared.go, Shared.connect] at went
      split at went
      all_goals
        obtain ⟨rfl, -⟩ := Prod.mk.inj (Option.some.inj went)
        rfl
  | making name args =>
      obtain ⟨rfl, -⟩ := Prod.mk.inj (Option.some.inj went)
      rfl
  | freeing name mysql => exact absurd rfl (apart name mysql)
  | deleting mysqls =>
      cases mysqls
      all_goals
        obtain ⟨rfl, -⟩ := Prod.mk.inj (Option.some.inj went)
        rfl

theorem sized_iff {action : Action} (taken : step server state action = some next) :
    Sized state next ↔ Bounded state action := by
  cases action with
  | get thread name =>
      obtain ⟨-, same⟩ := Option.ite_none_right_eq_some.mp taken
      obtain rfl := Option.some.inj same
      exact iff_of_true (Lesser.get rfl).sized trivial
  | go thread now later answered accepted =>
      obtain ⟨⟨shared, caller⟩, went, rfl⟩ := Option.map_eq_some_iff.mp taken
      cases place : state.threads thread with
      | freeing name mysql =>
          rw [place] at went
          rw [Bounded, place]
          apply freeMySQL_sized
          rw [Config.put_shared, Option.some.inj went]
      | outside | popped | making | connecting | deleting =>
          rw [place] at went
          rw [Bounded, place]
          refine iff_of_true (Lesser.sized fun name => ?_) trivial
          rw [Config.put_shared, go_conns went (fun _ _ => nofun)]
  | release thread index =>
      obtain ⟨-, same⟩ := Option.ite_none_right_eq_some.mp taken
      obtain ⟨⟨shared, caller⟩, released, rfl⟩ := Option.map_eq_some_iff.mp same
      obtain ⟨loan, -, same⟩ := Option.map_eq_some_iff.mp released
      cases same
      exact iff_of_true (Lesser.sized fun _ => Nat.le_refl _) trivial
  | checkConnection thread now sec =>
      obtain ⟨-, same⟩ := Option.ite_none_right_eq_some.mp taken
      obtain rfl := Option.some.inj same
      refine iff_of_true (Lesser.sized fun name => ?_) trivial
      dsimp only [Config.put_shared, Shared.checkConnection]
      rw [Std.Drawers.contents_keep]
      exact List.length_filter_le _ _
  | use index usage =>
      obtain ⟨shared, used, rfl⟩ := Option.map_eq_some_iff.mp taken
      obtain ⟨loan, -, rfl⟩ := Option.map_eq_some_iff.mp used
      exact iff_of_true (Lesser.sized fun _ => Nat.le_refl _) trivial
  | configure | registerMySQL =>
      cases taken
      exact iff_of_true (Lesser.sized fun _ => Nat.le_refl _) trivial

/-- Connections are where they belong, and the pools are not larger than they are configured,
exactly as long as no connection with a negative size is put back. -/
theorem pools_owned (run : Runs (step server) (fun _ _ => True) fresh state) :
    Owned state ∧ ∀ action next, step server state action = some next →
      Owned next ∧ (Sized state next ↔ Bounded state action) := by
  have owned : Owned state := run.invariant (fun _ _ _ owned _ => owned.step) .fresh
  exact ⟨owned, fun action next taken => ⟨owned.step taken, sized_iff taken⟩⟩

/-- Two threads use a pool of one connection. -/
def twoUsers : List Action :=
  [.registerMySQL (ascii "blog") [(ascii "pool", ascii "1")],
    .get 0 (ascii "blog"), .get 1 (ascii "blog"), .go 0 0 0 true true, .go 1 0 0 true true,
    .go 0 7 7 true true, .go 1 8 8 true true, .release 0 0, .go 0 9 9 true true,
    .get 2 (ascii "blog"), .release 0 0]

/-- Each of them has made a connection, and one is put back. -/
def twoMade : State :=
  (replay (step MySQL.plainServer) (fun _ _ => true) twoUsers fresh).get (by decide)

theorem pools_owned_two : Owned twoMade ∧
    ∀ action next, step MySQL.plainServer twoMade action = some next →
      Owned next ∧ (Sized twoMade next ↔ Bounded twoMade action) :=
  pools_owned (.of_replay (fun _ _ _ => trivial) (Option.some_get _).symm)

/-- A connection with the pool size -1 has been used, and the last pointer to it is gone. -/
def usedOnce : State :=
  (replay (step MySQL.plainServer) (fun _ _ => true)
    [.configure (ascii "blog") (some [(ascii "pool", ascii "-1")]), .get 0 (ascii "blog"),
      .go 0 0 0 true true, .go 0 7 7 true true, .release 0 0] fresh).get (by decide)

/-- `size_t` makes a large number of a negative pool size. -/
theorem not_pools_owned : ¬ ∀ (server : MySQL.Server) (state next : State) (action : Action),
    Runs (step server) (fun _ _ => True) fresh state → step server state action = some next →
      Owned next ∧ Sized state next := by
  intro claim
  have run : Runs (step MySQL.plainServer) (fun _ _ => True) fresh usedOnce :=
    .of_replay (fun _ _ _ => trivial) (Option.some_get _).symm
  have sized := (claim MySQL.plainServer usedOnce _ (.go 0 8 8 true true) run rfl).2
  have bounded : Bounded usedOnce (.go 0 8 8 true true) :=
    (@sized_iff MySQL.plainServer _ _ _ rfl).mp sized
  have positive : 0 ≤ (usedOnce.shared.mysqls 0).poolSize := bounded (by decide)
  revert positive
  decide

end Growing

end Xten.MySQLManager
