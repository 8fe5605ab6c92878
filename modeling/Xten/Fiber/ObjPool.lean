import Xten.Std.LinkedBlocks

/-!
# The pool of objects

`ObjPool<T>` in a process that uses it: the memory, the objects that it has handed out and the
memory that the system has given. A block that comes back is linked to those that are free by its
own first word; the others are cut from what the system gave last.
-/

namespace Xten

open Std.LinkedBlocks

/-- `MMAP_SIZE`. -/
def mmapSize : Nat :=
  132 * 1024 * 20

structure ObjPool where
  memory : Nat
  freeCapacity : BitVec 64
  freeList : Nat
  mmapSyscallCounter : BitVec 32
  hitCounter : BitVec 32
  freeCounter : BitVec 32
deriving DecidableEq, Repr

namespace ObjPool

def construct : ObjPool where
  memory := 0
  freeCapacity := 0
  freeList := 0
  mmapSyscallCounter := 0
  hitCounter := 0
  freeCounter := 0

variable (sizeofT : Nat) (pool : ObjPool)

def objSize : Nat :=
  if sizeofT > 8 then sizeofT else 8

/-- A block is cut from the rest of the memory. -/
def carve : Option Nat × ObjPool :=
  (some pool.memory, { pool with
    memory := pool.memory + objSize sizeofT
    freeCapacity := pool.freeCapacity - BitVec.ofNat 64 (objSize sizeofT) })

/-- `New`, with what `SystemCallMemory` returns if it is called. There is no object where
`std::bad_alloc` is thrown. -/
def new (system : Option Nat) (heap : Memory) : Option Nat × ObjPool :=
  if pool.freeList ≠ 0 then
    (some pool.freeList, { pool with
      freeList := loadWord heap pool.freeList
      hitCounter := pool.hitCounter + 1 })
  else if pool.freeCapacity.toNat < objSize sizeofT then
    let pool := { pool with
      freeCapacity := BitVec.ofNat 64 mmapSize
      memory := system.getD 0
      mmapSyscallCounter := pool.mmapSyscallCounter + 1 }
    if pool.memory = 0 then (none, pool) else pool.carve sizeofT
  else
    pool.carve sizeofT

/-- `Delete(ptr)`. -/
def delete (heap : Memory) (ptr : Nat) : Memory × ObjPool :=
  (storeWord heap ptr pool.freeList,
    { pool with freeList := ptr, freeCounter := pool.freeCounter + 1 })

/-- Whether `New` calls `SystemCallMemory`. -/
def asks : Bool :=
  pool.freeList = 0 ∧ pool.freeCapacity.toNat < objSize sizeofT

/-- A process with a pool. `live` are the objects that it has, and `regions` is where the memory
from the system starts. -/
structure Process where
  pool : ObjPool
  heap : Memory
  live : List Nat
  regions : List Nat

/-- What is done next. An object may be written to by those that have it. -/
inductive Event where
  | new (system : Option Nat)
  | delete (ptr : Nat)
  | write (addr : Nat) (byte : BitVec 8)

inductive Answer where
  | object (ptr : Nat)
  | badAlloc
  | done
deriving DecidableEq, Repr

def Answer.ofNew : Option Nat → Answer
  | some ptr => .object ptr
  | none => .badAlloc

namespace Process

def start (heap : Memory) : Process where
  pool := construct
  heap := heap
  live := []
  regions := []

variable (process : Process)

def step : Event → Answer × Process
  | .new system =>
      let result := process.pool.new sizeofT system process.heap
      (.ofNew result.1, { process with
        pool := result.2
        live := result.1.toList ++ process.live
        regions :=
          if process.pool.asks sizeofT then system.toList ++ process.regions else process.regions })
  | .delete ptr =>
      let result := process.pool.delete process.heap ptr
      (.done, { process with
        heap := result.1
        pool := result.2
        live := process.live.erase ptr })
  | .write addr byte => (.done, { process with heap := Function.update process.heap addr byte })

/-- What the system gives is nowhere in what it has given. -/
def Fresh (region : Nat) : Prop :=
  region ≠ 0 ∧ region + mmapSize ≤ 2 ^ 64 ∧ ∀ other ∈ process.regions, Apart mmapSize region other

/-- Only live objects are deleted and written to. -/
def Allowed : Event → Prop
  | .new system => process.pool.asks sizeofT → ∀ region ∈ system, process.Fresh region
  | .delete ptr => ptr ∈ process.live
  | .write addr _ => ∃ ptr ∈ process.live, ptr ≤ addr ∧ addr < ptr + objSize sizeofT

def AllAllowed : Process → List Event → Prop
  | _, [] => True
  | process, event :: later =>
      process.Allowed sizeofT event ∧ AllAllowed (process.step sizeofT event).2 later

/-- What comes back of some events. -/
def answers : Process → List Event → List Answer
  | _, [] => []
  | process, event :: later =>
      (process.step sizeofT event).1 :: answers (process.step sizeofT event).2 later

/-- The address is in memory from the system. -/
def Mapped (addr : Nat) : Prop :=
  ∃ region ∈ process.regions, region ≤ addr ∧ addr < region + mmapSize

/-- What is claimed of an event: the live objects do not overlap and are in memory from the system,
there is no null object, a request that fails is thrown, and leaves a pool that answers as before
it. -/
structure Sound (event : Event) : Prop where
  apart : (process.step sizeofT event).2.live.Pairwise (Apart (objSize sizeofT))
  inside : ∀ ptr ∈ (process.step sizeofT event).2.live, ∀ addr, ptr ≤ addr →
    addr < ptr + objSize sizeofT → (process.step sizeofT event).2.Mapped addr
  notNull : (process.step sizeofT event).1 ≠ .object 0
  throws : process.pool.asks sizeofT → event = .new none →
    (process.step sizeofT event).1 = .badAlloc
  usable : (process.step sizeofT event).1 = .badAlloc → ∀ later, process.AllAllowed sizeofT later →
    (process.step sizeofT event).2.answers sizeofT later = process.answers sizeofT later

def AllSound : Process → List Event → Prop
  | _, [] => True
  | process, event :: later =>
      process.Sound sizeofT event ∧ AllSound (process.step sizeofT event).2 later

/-- A request for memory that is made succeeds, or fails if no object would fit to the memory. -/
def Served (event : Event) : Prop :=
  process.pool.asks sizeofT → ∀ system, event = .new system →
    (system.isSome ↔ objSize sizeofT ≤ mmapSize)

def AllServed : Process → List Event → Prop
  | _, [] => True
  | process, event :: later =>
      process.Served sizeofT event ∧ AllServed (process.step sizeofT event).2 later

end Process

section New

variable {sizeofT : Nat} {pool : ObjPool} {system : Option Nat} {heap : Memory}

theorem le_objSize (sizeofT : Nat) : 8 ≤ objSize sizeofT := by
  rw [objSize]
  split <;> omega

theorem asks_iff : pool.asks sizeofT = true ↔
    pool.freeList = 0 ∧ pool.freeCapacity.toNat < objSize sizeofT :=
  decide_eq_true_iff

theorem asks_of_free (some : pool.freeList ≠ 0) : pool.asks sizeofT = false :=
  Bool.eq_false_iff.mpr fun asks => some (asks_iff.mp asks).1

theorem asks_of_rest (enough : objSize sizeofT ≤ pool.freeCapacity.toNat) :
    pool.asks sizeofT = false :=
  Bool.eq_false_iff.mpr fun asks => Nat.not_lt.mpr enough (asks_iff.mp asks).2

theorem new_of_free (some : pool.freeList ≠ 0) :
    pool.new sizeofT system heap = (.some pool.freeList, { pool with
      freeList := loadWord heap pool.freeList
      hitCounter := pool.hitCounter + 1 }) :=
  if_pos some

theorem new_of_rest (none : pool.freeList = 0) (enough : objSize sizeofT ≤ pool.freeCapacity.toNat) :
    pool.new sizeofT system heap = pool.carve sizeofT := by
  rw [new, if_neg (not_not_intro none), if_neg (Nat.not_lt.mpr enough)]

/-- The pool that has asked the system. -/
def asked (pool : ObjPool) (system : Option Nat) : ObjPool :=
  { pool with
    freeCapacity := BitVec.ofNat 64 mmapSize
    memory := system.getD 0
    mmapSyscallCounter := pool.mmapSyscallCounter + 1 }

theorem new_of_asks (asks : pool.asks sizeofT) : pool.new sizeofT system heap =
    if system.getD 0 = 0 then (none, pool.asked system) else (pool.asked system).carve sizeofT := by
  obtain ⟨none, short⟩ := asks_iff.mp asks
  rw [new, if_neg (not_not_intro none), if_pos short]
  rfl

theorem new_of_none (asks : pool.asks sizeofT) :
    pool.new sizeofT none heap = (.none, pool.asked none) := by
  rw [new_of_asks asks]
  exact if_pos rfl

theorem new_of_region {region : Nat} (asks : pool.asks sizeofT) (some : region ≠ 0) :
    pool.new sizeofT (.some region) heap = (pool.asked (.some region)).carve sizeofT := by
  rw [new_of_asks asks]
  exact if_neg some

end New

namespace Process

section Keeping

variable {sizeofT : Nat} {process : Process} {free : List Nat}

/-- The blocks that are live or free do not overlap. They are in memory from the system, apart from
the rest that blocks are cut from. -/
structure Kept (sizeofT : Nat) (process : Process) (free : List Nat) : Prop where
  linked : Linked process.heap process.pool.freeList free
  apart : (process.live ++ free).Pairwise (Apart (objSize sizeofT))
  inside : ∀ block ∈ process.live ++ free, ∃ region ∈ process.regions,
    region ≤ block ∧ block + objSize sizeofT ≤ region + mmapSize
  regions : ∀ region ∈ process.regions, region ≠ 0 ∧ region + mmapSize ≤ 2 ^ 64
  rest : process.pool.freeCapacity.toNat = 0 ∨ ∃ region ∈ process.regions,
    region ≤ process.pool.memory ∧
      process.pool.memory + process.pool.freeCapacity.toNat ≤ region + mmapSize
  ahead : ∀ block ∈ process.live ++ free, block + objSize sizeofT ≤ process.pool.memory ∨
    process.pool.memory + process.pool.freeCapacity.toNat ≤ block

theorem Kept.start (sizeofT : Nat) (heap : Memory) : Kept sizeofT (start heap) [] where
  linked := .nil
  apart := .nil
  inside := by
    intro block inside
    cases inside
  regions := by
    intro region inside
    cases inside
  rest := .inl rfl
  ahead := by
    intro block inside
    cases inside

/-- A block has an address, which is not null. -/
theorem Kept.bounds (kept : Kept sizeofT process free) {block : Nat}
    (inside : block ∈ process.live ++ free) :
    block ≠ 0 ∧ block + objSize sizeofT ≤ 2 ^ 64 := by
  obtain ⟨region, given, lower, upper⟩ := kept.inside block inside
  have := kept.regions region given
  omega

/-- The same blocks in another order. -/
theorem Kept.reorder {pool : ObjPool} {heap : Memory} {live free' : List Nat}
    (kept : Kept sizeofT process free) (same : (live ++ free').Perm (process.live ++ free))
    (linked : Linked heap pool.freeList free') (memory : pool.memory = process.pool.memory)
    (capacity : pool.freeCapacity = process.pool.freeCapacity) :
    Kept sizeofT ⟨pool, heap, live, process.regions⟩ free' where
  linked := linked
  apart := (same.pairwise_iff Apart.symm).mpr kept.apart
  inside block member := kept.inside block (same.mem_iff.mp member)
  regions := kept.regions
  rest := by
    simpa only [memory, capacity] using kept.rest
  ahead block member := by
    simpa only [memory, capacity] using kept.ahead block (same.mem_iff.mp member)

/-- A block is cut from the rest. -/
theorem Kept.carve (kept : Kept sizeofT process free)
    (enough : objSize sizeofT ≤ process.pool.freeCapacity.toNat) :
    Kept sizeofT ⟨(process.pool.carve sizeofT).2, process.heap,
      process.pool.memory :: process.live, process.regions⟩ free := by
  have positive := le_objSize sizeofT
  have small : objSize sizeofT < 2 ^ 64 := Nat.lt_of_le_of_lt enough (BitVec.isLt _)
  have capacity : (process.pool.freeCapacity - BitVec.ofNat 64 (objSize sizeofT)).toNat =
      process.pool.freeCapacity.toNat - objSize sizeofT := by
    rw [BitVec.toNat_sub_of_le, BitVec.toNat_ofNat, Nat.mod_eq_of_lt small]
    rwa [BitVec.le_def, BitVec.toNat_ofNat, Nat.mod_eq_of_lt small]
  obtain empty | ⟨region, given, lower, upper⟩ := kept.rest
  · omega
  constructor
  · exact kept.linked
  · refine List.pairwise_cons.mpr ⟨fun block inside => ?_, kept.apart⟩
    have := kept.ahead block inside
    rw [Apart]
    omega
  · rintro block (_ | ⟨_, inside⟩)
    · exact ⟨region, given, lower, by omega⟩
    · exact kept.inside block inside
  · exact kept.regions
  · refine .inr ⟨region, given, Nat.le_add_right_of_le lower, ?_⟩
    change process.pool.memory + objSize sizeofT +
      (process.pool.freeCapacity - BitVec.ofNat 64 (objSize sizeofT)).toNat ≤ region + mmapSize
    omega
  · intro block member
    change block + objSize sizeofT ≤ process.pool.memory + objSize sizeofT ∨
      process.pool.memory + objSize sizeofT +
        (process.pool.freeCapacity - BitVec.ofNat 64 (objSize sizeofT)).toNat ≤ block
    obtain rfl | inside := List.mem_cons.mp member
    · exact .inl (Nat.le_refl _)
    · have := kept.ahead block inside
      omega

/-- The blocks are apart from what the system gives. -/
theorem Kept.asked (kept : Kept sizeofT process free) {region : Nat}
    (fresh : process.Fresh region) :
    Kept sizeofT ⟨process.pool.asked (some region), process.heap, process.live,
      region :: process.regions⟩ free := by
  obtain ⟨some, fits, apart⟩ := fresh
  have capacity : (BitVec.ofNat 64 mmapSize).toNat = mmapSize := rfl
  constructor
  · exact kept.linked
  · exact kept.apart
  · intro block inside
    obtain ⟨other, given, bounds⟩ := kept.inside block inside
    exact ⟨other, List.mem_cons_of_mem _ given, bounds⟩
  · rintro other (_ | ⟨_, given⟩)
    · exact ⟨some, fits⟩
    · exact kept.regions other given
  · exact .inr ⟨region, List.mem_cons_self, Nat.le_refl _, (congrArg (region + ·) capacity).le⟩
  · intro block inside
    obtain ⟨other, given, lower, upper⟩ := kept.inside block inside
    have far := apart other given
    rw [Apart] at far
    change block + objSize sizeofT ≤ region ∨
      region + (BitVec.ofNat 64 mmapSize).toNat ≤ block
    omega

/-- A live object becomes the first of the free blocks. -/
theorem Kept.delete (kept : Kept sizeofT process free) {ptr : Nat} (live : ptr ∈ process.live) :
    ∃ free', Kept sizeofT (process.step sizeofT (.delete ptr)).2 free' := by
  have same : (process.live.erase ptr ++ ptr :: free).Perm (process.live ++ free) :=
    List.perm_middle.trans (((List.perm_cons_erase live).symm).append_right free)
  have blocks := (same.pairwise_iff Apart.symm).mpr kept.apart
  have apart : ∀ later ∈ free, Apart (objSize sizeofT) ptr later := by
    intro later inside
    have tail := (List.pairwise_append.mp blocks).2.1
    exact (List.pairwise_cons.mp tail).1 later inside
  have fits : process.pool.freeList < 2 ^ 64 := by
    obtain none | inside := kept.linked.head_mem
    · omega
    · have := kept.bounds (List.mem_append_right process.live inside)
      have := le_objSize sizeofT
      omega
  have some : ptr ≠ 0 := (kept.bounds (List.mem_append_left free live)).1
  exact ⟨ptr :: free, kept.reorder same
    (kept.linked.push fits some (le_objSize sizeofT) apart) rfl rfl⟩

/-- Writing to a live object leaves the links of the free ones alone. -/
theorem Kept.write (kept : Kept sizeofT process free) {addr : Nat} (byte : BitVec 8)
    (allowed : process.Allowed sizeofT (.write addr byte)) :
    Kept sizeofT (process.step sizeofT (.write addr byte)).2 free := by
  obtain ⟨ptr, live, lower, upper⟩ := allowed
  refine kept.reorder (.refl _) (kept.linked.congr fun block inside place start stop => ?_) rfl rfl
  have far : Apart (objSize sizeofT) ptr block :=
    (List.pairwise_append.mp kept.apart).2.2 ptr live block inside
  have positive := le_objSize sizeofT
  refine Function.update_of_ne ?_ _ _
  rw [Apart] at far
  omega

/-- `New` hands out a free block, or one that is cut from the rest. -/
theorem Kept.new (kept : Kept sizeofT process free) (small : objSize sizeofT ≤ mmapSize)
    {system : Option Nat} (allowed : process.Allowed sizeofT (.new system))
    (served : process.Served sizeofT (.new system)) :
    ∃ ptr free', (process.step sizeofT (.new system)).1 = .object ptr ∧
      ptr ∈ (process.step sizeofT (.new system)).2.live ∧
        Kept sizeofT (process.step sizeofT (.new system)).2 free' := by
  by_cases some : process.pool.freeList ≠ 0
  · obtain ⟨rest, rfl, linked⟩ := kept.linked.pop some
    have same : (process.pool.freeList :: process.live ++ rest).Perm
        (process.live ++ process.pool.freeList :: rest) := List.perm_middle.symm
    simp only [step, new_of_free some, asks_of_free some]
    exact ⟨_, rest, rfl, List.mem_cons_self, kept.reorder same linked rfl rfl⟩
  · rw [not_not] at some
    by_cases enough : objSize sizeofT ≤ process.pool.freeCapacity.toNat
    · simp only [step, new_of_rest some enough, asks_of_rest enough]
      exact ⟨_, free, rfl, List.mem_cons_self, kept.carve enough⟩
    · have asks : process.pool.asks sizeofT = true := asks_iff.mpr ⟨some, Nat.not_le.mp enough⟩
      obtain ⟨region, rfl⟩ := Option.isSome_iff_exists.mp ((served asks system rfl).mpr small)
      have fresh := allowed asks region rfl
      simp only [step, new_of_region asks fresh.1, asks]
      exact ⟨_, free, rfl, List.mem_cons_self, (kept.asked fresh).carve small⟩

/-- Where no object fits to the memory of the system, nothing has been given. -/
structure Unused (sizeofT : Nat) (process : Process) : Prop where
  live : process.live = []
  regions : process.regions = []
  freeList : process.pool.freeList = 0
  short : process.pool.freeCapacity.toNat < objSize sizeofT

/-- Two processes that differ in what is not used, and in what is counted. -/
structure Alike (sizeofT : Nat) (one two : Process) : Prop where
  heap : one.heap = two.heap
  live : one.live = two.live
  regions : one.regions = two.regions
  freeList : one.pool.freeList = two.pool.freeList
  rest : one.pool.memory = two.pool.memory ∧ one.pool.freeCapacity = two.pool.freeCapacity ∨
    one.pool.freeCapacity.toNat < objSize sizeofT ∧ two.pool.freeCapacity.toNat < objSize sizeofT

theorem Alike.new {one two : Process} (alike : Alike sizeofT one two) (system : Option Nat) :
    (one.step sizeofT (.new system)).1 = (two.step sizeofT (.new system)).1 ∧
      Alike sizeofT (one.step sizeofT (.new system)).2 (two.step sizeofT (.new system)).2 := by
  obtain ⟨pool, heap, live, regions⟩ := one
  obtain ⟨pool', heap', live', regions'⟩ := two
  obtain ⟨rfl, rfl, rfl, lists, rest⟩ := alike
  dsimp only at lists rest
  by_cases some : pool.freeList ≠ 0
  · have some' : pool'.freeList ≠ 0 := lists ▸ some
    simp only [step, new_of_free some, new_of_free some', asks_of_free some, asks_of_free some',
      lists, true_and]
    exact ⟨rfl, rfl, rfl, rfl, rest⟩
  · rw [not_not] at some
    have some' : pool'.freeList = 0 := lists ▸ some
    by_cases enough : objSize sizeofT ≤ pool.freeCapacity.toNat
    · obtain ⟨memory, capacity⟩ | ⟨short, -⟩ := rest
      · have enough' : objSize sizeofT ≤ pool'.freeCapacity.toNat := capacity ▸ enough
        simp only [step, new_of_rest some enough, new_of_rest some' enough', asks_of_rest enough,
          asks_of_rest enough', carve, memory, capacity, true_and]
        exact ⟨rfl, rfl, rfl, lists, .inl ⟨rfl, rfl⟩⟩
      · omega
    · have short' : pool'.freeCapacity.toNat < objSize sizeofT := by
        obtain ⟨-, capacity⟩ | ⟨-, short⟩ := rest
        · rw [← capacity]
          exact Nat.not_le.mp enough
        · exact short
      have asks : pool.asks sizeofT = true := asks_iff.mpr ⟨some, Nat.not_le.mp enough⟩
      have asks' : pool'.asks sizeofT = true := asks_iff.mpr ⟨some', short'⟩
      simp only [step, new_of_asks asks, new_of_asks asks', asks, asks', if_true]
      by_cases none : system.getD 0 = 0
      · simp only [if_pos none, true_and]
        exact ⟨rfl, rfl, rfl, lists, .inl ⟨rfl, rfl⟩⟩
      · simp only [if_neg none]
        exact ⟨rfl, rfl, rfl, rfl, lists, .inl ⟨rfl, rfl⟩⟩

/-- What the two answer is the same. -/
theorem Alike.answers {one two : Process} (alike : Alike sizeofT one two) (later : List Event) :
    one.answers sizeofT later = two.answers sizeofT later := by
  induction later generalizing one two with
  | nil => rfl
  | cons event later ih =>
      rw [Process.answers, Process.answers]
      cases event with
      | new system =>
          obtain ⟨same, next⟩ := alike.new system
          rw [same, ih next]
      | delete ptr =>
          refine congrArg (Answer.done :: ·) (ih ⟨?_, ?_, alike.regions, rfl, alike.rest⟩)
          · change storeWord one.heap ptr one.pool.freeList = storeWord two.heap ptr two.pool.freeList
            rw [alike.heap, alike.freeList]
          · change one.live.erase ptr = two.live.erase ptr
            rw [alike.live]
      | write addr byte =>
          refine congrArg (Answer.done :: ·)
            (ih ⟨?_, alike.live, alike.regions, alike.freeList, alike.rest⟩)
          change Function.update one.heap addr byte = Function.update two.heap addr byte
          rw [alike.heap]

theorem Kept.apart_live (kept : Kept sizeofT process free) :
    process.live.Pairwise (Apart (objSize sizeofT)) :=
  (List.pairwise_append.mp kept.apart).1

theorem Kept.mapped (kept : Kept sizeofT process free) :
    ∀ ptr ∈ process.live, ∀ addr, ptr ≤ addr → addr < ptr + objSize sizeofT →
      process.Mapped addr := by
  intro ptr live addr lower upper
  obtain ⟨region, given, start, stop⟩ := kept.inside ptr (List.mem_append_left free live)
  exact ⟨region, given, by omega, by omega⟩

/-- An event that hands out no object does nothing that `Sound` speaks of. -/
theorem Kept.sound_of_done {event : Event} {free' : List Nat}
    (kept : Kept sizeofT (process.step sizeofT event).2 free')
    (done : (process.step sizeofT event).1 = .done) (notNew : event ≠ .new none) :
    process.Sound sizeofT event where
  apart := kept.apart_live
  inside := kept.mapped
  notNull := by
    rw [done]
    exact Answer.noConfusion
  throws := fun _ isNew => absurd isNew notNew
  usable := by
    rw [done]
    exact fun none => Answer.noConfusion none

theorem Kept.sound (kept : Kept sizeofT process free) (small : objSize sizeofT ≤ mmapSize)
    {event : Event} (allowed : process.Allowed sizeofT event)
    (served : process.Served sizeofT event) :
    process.Sound sizeofT event ∧ ∃ free', Kept sizeofT (process.step sizeofT event).2 free' := by
  cases event with
  | new system =>
      obtain ⟨ptr, free', answer, live, next⟩ := kept.new small allowed served
      refine ⟨⟨next.apart_live, next.mapped, ?_, ?_, ?_⟩, free', next⟩
      · rw [answer]
        rintro ⟨⟩
        exact (next.bounds (List.mem_append_left free' live)).1 rfl
      · rintro asks ⟨⟩
        exact absurd ((served asks none rfl).mpr small) Bool.false_ne_true
      · rw [answer]
        exact fun none => Answer.noConfusion none
  | delete ptr =>
      obtain ⟨free', next⟩ := kept.delete allowed
      exact ⟨next.sound_of_done rfl Event.noConfusion, free', next⟩
  | write addr byte =>
      have next := kept.write byte allowed
      exact ⟨next.sound_of_done rfl Event.noConfusion, free, next⟩

theorem step_of_failure (asks : process.pool.asks sizeofT) : process.step sizeofT (.new none) =
    (.badAlloc, { process with pool := process.pool.asked none }) := by
  simp only [step, new_of_none asks, asks]
  rfl

/-- A pool whose request has failed hands out the null pointer. -/
theorem Sound.served (small : objSize sizeofT ≤ mmapSize) {event : Event}
    (sound : process.Sound sizeofT event) : process.Served sizeofT event := by
  rintro asks system rfl
  refine ⟨fun _ => small, fun _ => ?_⟩
  cases system with
  | some region => rfl
  | none =>
      have thrown := step_of_failure asks
      have again : (process.pool.asked none).new sizeofT none process.heap =
          (process.pool.asked none).carve sizeofT :=
        new_of_rest (asks_iff.mp asks).1 small
      have later : process.AllAllowed sizeofT [.new none] :=
        ⟨fun _ region given => absurd given (Option.not_mem_none region), trivial⟩
      have same := sound.usable (congrArg Prod.fst thrown) [.new none] later
      have first : process.answers sizeofT [.new none] = [.badAlloc] :=
        congrArg (fun result => [Prod.fst result]) thrown
      have second : (process.step sizeofT (.new none)).2.answers sizeofT [.new none] =
          [.object 0] := by
        rw [thrown]
        exact congrArg (fun result => [Answer.ofNew (Prod.fst result)]) again
      rw [first, second] at same
      cases same

theorem Unused.asks (unused : Unused sizeofT process) : process.pool.asks sizeofT = true :=
  asks_iff.mpr ⟨unused.freeList, unused.short⟩

/-- Nothing can be deleted or written to. -/
theorem Unused.isNew (unused : Unused sizeofT process) {event : Event}
    (allowed : process.Allowed sizeofT event) : ∃ system, event = .new system := by
  cases event with
  | new system => exact ⟨system, rfl⟩
  | delete ptr =>
      rw [Allowed, unused.live] at allowed
      cases allowed
  | write addr byte =>
      obtain ⟨ptr, live, -⟩ := allowed
      rw [unused.live] at live
      cases live

theorem Unused.sound (unused : Unused sizeofT process) (large : mmapSize < objSize sizeofT) :
    process.Sound sizeofT (.new none) ∧
      Unused sizeofT (process.step sizeofT (.new none)).2 := by
  have thrown := step_of_failure unused.asks
  have next : Unused sizeofT { process with pool := process.pool.asked none } :=
    ⟨unused.live, unused.regions, unused.freeList, large⟩
  have alike : Alike sizeofT { process with pool := process.pool.asked none } process :=
    ⟨rfl, rfl, rfl, rfl, .inr ⟨large, unused.short⟩⟩
  refine ⟨⟨?_, ?_, ?_, ?_, ?_⟩, ?_⟩
  all_goals rw [thrown]
  · change process.live.Pairwise _
    rw [unused.live]
    exact .nil
  · intro ptr live
    have none : ptr ∈ process.live := live
    rw [unused.live] at none
    cases none
  · exact Answer.noConfusion
  · exact fun _ _ => rfl
  · exact fun _ later _ => alike.answers later
  · exact next

/-- An object that does not fit goes beyond what the system has given. -/
theorem Unused.not_sound (unused : Unused sizeofT process) (large : mmapSize < objSize sizeofT)
    {region : Nat} (allowed : process.Allowed sizeofT (.new (some region))) :
    ¬ process.Sound sizeofT (.new (some region)) := by
  intro sound
  have fresh := allowed unused.asks region rfl
  have cut : process.step sizeofT (.new (some region)) = (.object region,
      ⟨((process.pool.asked (some region)).carve sizeofT).2, process.heap,
        region :: process.live, region :: process.regions⟩) := by
    simp only [step, new_of_region unused.asks fresh.1, unused.asks]
    rfl
  have inside := sound.inside
  rw [cut] at inside
  obtain ⟨other, given, lower, upper⟩ :=
    inside region List.mem_cons_self (region + mmapSize) (by omega) (by omega)
  rw [unused.regions, List.mem_singleton] at given
  omega

/-- The blocks are as they are to be, or there is none since none would fit. -/
def Standing (sizeofT : Nat) (process : Process) : Prop :=
  objSize sizeofT ≤ mmapSize ∧ (∃ free, Kept sizeofT process free) ∨
    mmapSize < objSize sizeofT ∧ Unused sizeofT process

theorem Standing.start (sizeofT : Nat) (heap : Memory) : Standing sizeofT (start heap) := by
  obtain large | small := Nat.lt_or_ge mmapSize (objSize sizeofT)
  · have positive : 0 < objSize sizeofT := Nat.lt_of_lt_of_le (by decide) (le_objSize sizeofT)
    exact .inr ⟨large, rfl, rfl, rfl, positive⟩
  · exact .inl ⟨small, [], .start sizeofT heap⟩

/-- An event keeps to what is claimed exactly when it is served, and leaves the pool standing. -/
theorem Standing.sound_iff (standing : Standing sizeofT process) {event : Event}
    (allowed : process.Allowed sizeofT event) :
    (process.Sound sizeofT event ↔ process.Served sizeofT event) ∧
      (process.Served sizeofT event → Standing sizeofT (process.step sizeofT event).2) := by
  obtain ⟨small, free, kept⟩ | ⟨large, unused⟩ := standing
  · refine ⟨⟨Sound.served small, fun served => (kept.sound small allowed served).1⟩, ?_⟩
    exact fun served => .inl ⟨small, (kept.sound small allowed served).2⟩
  · obtain ⟨system, rfl⟩ := unused.isNew allowed
    cases system with
    | none =>
        obtain ⟨sound, next⟩ := unused.sound large
        refine ⟨⟨fun _ _ system same => ?_, fun _ => sound⟩, fun _ => .inr ⟨large, next⟩⟩
        obtain rfl := Event.new.inj same
        exact ⟨fun given => absurd given Bool.false_ne_true,
          fun small => absurd small (Nat.not_le.mpr large)⟩
    | some region =>
        have notServed : ¬ process.Served sizeofT (.new (some region)) := fun served =>
          absurd ((served unused.asks _ rfl).mp rfl) (Nat.not_le.mpr large)
        exact ⟨⟨fun sound => absurd sound (unused.not_sound large allowed),
          fun served => absurd served notServed⟩, fun served => absurd served notServed⟩

theorem Standing.allSound_iff (standing : Standing sizeofT process) (events : List Event)
    (allowed : process.AllAllowed sizeofT events) :
    process.AllSound sizeofT events ↔ process.AllServed sizeofT events := by
  induction events generalizing process with
  | nil => exact Iff.rfl
  | cons event later ih =>
      obtain ⟨first, allowedLater⟩ := allowed
      obtain ⟨iff, next⟩ := standing.sound_iff first
      constructor
      · rintro ⟨sound, more⟩
        have served := iff.mp sound
        exact ⟨served, (ih (next served) allowedLater).mp more⟩
      · rintro ⟨served, more⟩
        exact ⟨iff.mpr served, (ih (next served) allowedLater).mpr more⟩

end Keeping

/-- The runs in which no request for memory fails are those in which the pool does what is claimed.
Objects that would not fit to that memory need the opposite. -/
theorem allSound_start_iff (sizeofT : Nat) (heap : Memory) (events : List Event)
    (allowed : (start heap).AllAllowed sizeofT events) :
    (start heap).AllSound sizeofT events ↔ (start heap).AllServed sizeofT events :=
  (Standing.start sizeofT heap).allSound_iff events allowed

theorem allSound_start_iff_reused :
    (start fun _ => 0).AllSound 16 [.new (some 4096), .delete 4096] ↔
      (start fun _ => 0).AllServed 16 [.new (some 4096), .delete 4096] := by
  have fresh : ∀ region ∈ some 4096, (start fun _ => 0).Fresh region := by
    rintro region ⟨⟩
    exact ⟨by decide, by decide, fun other given => absurd given List.not_mem_nil⟩
  exact allSound_start_iff 16 (fun _ => 0) _ ⟨fun _ => fresh, List.mem_cons_self, trivial⟩

/-- The second of two requests of which the first has failed gets the null pointer. -/
theorem null_after_failure : (start fun _ => 0).answers 16 [.new none, .new none] =
      [.badAlloc, .object 0] ∧
    ¬ (start fun _ => 0).AllSound 16 [.new none, .new none] := by
  have answers : (start fun _ => 0).answers 16 [.new none, .new none] =
      [.badAlloc, .object 0] := by
    decide
  refine ⟨answers, ?_⟩
  rintro ⟨-, sound, -⟩
  exact sound.notNull (List.cons.inj (List.cons.inj answers).2).1

end Process

end ObjPool

end Xten
