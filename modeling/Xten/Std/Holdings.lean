import Xten.Std.Interleaving

/-!
# What threads hold

Counters of the threads that are somewhere, and items that pass between the shared state
and the hands of the threads. Both are kept by looking only at the thread that moves.
-/

namespace Xten.Std.Interleaving

section Counting

variable {Key : Type} {shows now : Key → Prop} {count : Int} {key : Key}

/-- So many keys show something. -/
def Counted (shows : Key → Prop) (count : Int) : Prop :=
  ∃ keys : Finset Key, (∀ key, key ∈ keys ↔ shows key) ∧ count = keys.card

theorem Counted.zero (none : ∀ key, ¬ shows key) : Counted shows 0 :=
  ⟨∅, fun key => iff_of_false (Finset.notMem_empty key) (none key), rfl⟩

/-- The count is zero only if no key is counted. -/
theorem Counted.none_of_zero (counted : Counted shows 0) (key : Key) : ¬ shows key := by
  obtain ⟨keys, members, card⟩ := counted
  have empty : keys = ∅ := Finset.card_eq_zero.mp (Int.ofNat_eq_zero.mp card.symm)
  rw [← members, empty]
  exact Finset.notMem_empty key

/-- Nothing is counted. -/
theorem Counted.eq_zero (counted : Counted shows count) (none : ∀ key, ¬ shows key) :
    count = 0 := by
  obtain ⟨keys, members, rfl⟩ := counted
  have empty : keys = ∅ := Finset.eq_empty_of_forall_notMem fun key member =>
    none key ((members key).mp member)
  rw [empty]
  rfl

/-- The count is positive as long as some key is counted. -/
theorem Counted.pos (counted : Counted shows count) (some : shows key) : 0 < count := by
  obtain ⟨keys, members, rfl⟩ := counted
  exact Int.natCast_pos.mpr (Finset.card_pos.mpr ⟨key, (members key).mpr some⟩)

theorem Counted.congr (counted : Counted shows count) (same : ∀ key, now key ↔ shows key) :
    Counted now count := by
  obtain ⟨keys, members, card⟩ := counted
  exact ⟨keys, fun key => (members key).trans (same key).symm, card⟩

/-- A key comes to be counted. -/
theorem Counted.enter (counted : Counted shows count) (new : ¬ shows key)
    (added : ∀ other, now other ↔ other = key ∨ shows other) : Counted now (count + 1) := by
  classical
  obtain ⟨keys, members, rfl⟩ := counted
  refine ⟨insert key keys, fun other => ?_, ?_⟩
  · rw [Finset.mem_insert, members, added]
  · rw [Finset.card_insert_of_notMem (mt (members key).mp new), Int.natCast_succ]

/-- A key ceases to be counted. -/
theorem Counted.leave (counted : Counted shows count) (old : shows key)
    (removed : ∀ other, now other ↔ other ≠ key ∧ shows other) : Counted now (count - 1) := by
  classical
  obtain ⟨keys, members, rfl⟩ := counted
  have member : key ∈ keys := (members key).mpr old
  refine ⟨keys.erase key, fun other => ?_, ?_⟩
  · rw [Finset.mem_erase, members, removed]
  · have pos : 0 < keys.card := Finset.card_pos.mpr ⟨key, member⟩
    rw [Finset.card_erase_of_mem member]
    omega

end Counting

section Counters

variable {Shared Local : Type} {config : Config Shared Local} {thread : Nat} {shared : Shared}
  {next : Local} {shows : Local → Prop} {count : Int}

/-- So many threads show something. -/
def Config.Counts (config : Config Shared Local) (shows : Local → Prop) (count : Int) : Prop :=
  ∃ threads : Finset Nat, (∀ thread, thread ∈ threads ↔ shows (config.threads thread)) ∧
    count = threads.card

theorem Config.counts_iff :
    config.Counts shows count ↔ Counted (fun thread => shows (config.threads thread)) count :=
  Iff.rfl

theorem Config.Counts.zero (none : ∀ thread, ¬ shows (config.threads thread)) :
    config.Counts shows 0 :=
  config.counts_iff.mpr (.zero none)

/-- The counter is zero only if no thread is counted. -/
theorem Config.Counts.none_of_zero (counts : config.Counts shows 0) (thread : Nat) :
    ¬ shows (config.threads thread) :=
  (config.counts_iff.mp counts).none_of_zero thread

/-- The counter is positive as long as some thread is counted. -/
theorem Config.Counts.pos (counts : config.Counts shows count)
    (some : shows (config.threads thread)) : 0 < count :=
  Counted.pos (config.counts_iff.mp counts) some

/-- One thread at most is counted. -/
theorem Config.Counts.unique {other : Nat} (counts : config.Counts shows count) (one : count ≤ 1)
    (first : shows (config.threads thread)) (second : shows (config.threads other)) :
    thread = other := by
  obtain ⟨threads, members, rfl⟩ := counts
  have few : threads.card ≤ 1 := Int.ofNat_le.mp one
  exact Finset.card_le_one.mp few _ ((members _).mpr first) _ ((members _).mpr second)

/-- A thread moves within what is counted, or outside of it. -/
theorem Config.Counts.put (counts : config.Counts shows count)
    (same : shows next ↔ shows (config.threads thread)) :
    (config.put thread shared next).Counts shows count :=
  (config.counts_iff.mp counts).congr fun other =>
    iff_of_eq (config.put_view shows (propext same) other)

/-- A thread comes to be counted. -/
theorem Config.Counts.enter (counts : config.Counts shows count)
    (was : ¬ shows (config.threads thread)) (now : shows next) :
    (config.put thread shared next).Counts shows (count + 1) := by
  refine (config.counts_iff.mp counts).enter was fun other => ?_
  obtain ⟨rfl, current⟩ | ⟨apart, current⟩ := config.put_cases thread shared next other
  all_goals rw [current]
  · exact iff_of_true now (.inl rfl)
  · exact (or_iff_right apart).symm

/-- A thread ceases to be counted. -/
theorem Config.Counts.leave (counts : config.Counts shows count)
    (was : shows (config.threads thread)) (now : ¬ shows next) :
    (config.put thread shared next).Counts shows (count - 1) := by
  refine (config.counts_iff.mp counts).leave was fun other => ?_
  obtain ⟨rfl, current⟩ | ⟨apart, current⟩ := config.put_cases thread shared next other
  all_goals rw [current]
  · exact iff_of_false now fun both => both.1 rfl
  · exact (and_iff_right apart).symm

end Counters

section Weights

variable {Shared Local : Type} {config : Config Shared Local} {thread other : Nat} {shared : Shared}
  {next : Local} {weight : Local → Nat} {total sum : Nat}

/-- The threads weigh so much together. -/
def Config.Sums (config : Config Shared Local) (weight : Local → Nat) (total : Nat) : Prop :=
  ∃ threads : Finset Nat, (∀ thread ∉ threads, weight (config.threads thread) = 0) ∧
    total = ∑ thread ∈ threads, weight (config.threads thread)

theorem Config.Sums.zero (none : ∀ thread, weight (config.threads thread) = 0) :
    config.Sums weight 0 :=
  ⟨∅, fun thread _ => none thread, rfl⟩

theorem Config.Sums.eq_zero (sums : config.Sums weight total)
    (none : ∀ thread, weight (config.threads thread) = 0) : total = 0 := by
  obtain ⟨threads, -, rfl⟩ := sums
  exact Finset.sum_eq_zero fun thread _ => none thread

/-- One thread and the others. -/
theorem Config.Sums.split (sums : config.Sums weight total) (thread : Nat) :
    ∃ others : Finset Nat, thread ∉ others ∧
      (∀ other ∉ others, other ≠ thread → weight (config.threads other) = 0) ∧
      total = weight (config.threads thread) + ∑ other ∈ others, weight (config.threads other) := by
  obtain ⟨threads, rest, rfl⟩ := sums
  refine ⟨threads.erase thread, Finset.notMem_erase thread threads, fun other out apart => ?_, ?_⟩
  · exact rest other fun member => out (Finset.mem_erase.mpr ⟨apart, member⟩)
  · by_cases member : thread ∈ threads
    · exact (Finset.add_sum_erase _ _ member).symm
    · rw [Finset.erase_eq_of_notMem member, rest thread member, Nat.zero_add]

/-- Only the weight of the thread that moves changes. -/
theorem Config.Sums.put (sums : config.Sums weight total)
    (moved : sum + weight (config.threads thread) = total + weight next) :
    (config.put thread shared next).Sums weight sum := by
  obtain ⟨others, out, rest, whole⟩ := sums.split thread
  have same : ∑ other ∈ others, weight ((config.put thread shared next).threads other) =
      ∑ other ∈ others, weight (config.threads other) :=
    Finset.sum_congr rfl fun other member => by
      rw [Config.put_other fun isThread : other = thread => out (isThread ▸ member)]
  refine ⟨insert thread others, fun other absent => ?_, ?_⟩
  · rw [Finset.mem_insert, not_or] at absent
    rw [Config.put_other absent.1]
    exact rest other absent.2 absent.1
  · rw [Finset.sum_insert out, Config.put_self, same]
    omega

/-- A thread that weighs the same as before. -/
theorem Config.Sums.keep (sums : config.Sums weight total)
    (same : weight next = weight (config.threads thread)) :
    (config.put thread shared next).Sums weight total :=
  sums.put (by rw [same])

theorem Config.Sums.le (sums : config.Sums weight total) (thread : Nat) :
    weight (config.threads thread) ≤ total := by
  obtain ⟨others, -, -, whole⟩ := sums.split thread
  omega

/-- Two weights together. -/
theorem Config.Sums.add {lighter : Local → Nat} (light : config.Sums lighter sum)
    (heavy : config.Sums weight total) :
    config.Sums (fun state => lighter state + weight state) (sum + total) := by
  classical
  obtain ⟨few, fewRest, rfl⟩ := light
  obtain ⟨many, manyRest, rfl⟩ := heavy
  refine ⟨few ∪ many, fun thread out => ?_, ?_⟩
  · rw [Finset.mem_union, not_or] at out
    simp only [fewRest thread out.1, manyRest thread out.2]
  · rw [Finset.sum_add_distrib]
    congr 1
    · exact Finset.sum_subset Finset.subset_union_left fun thread _ out => fewRest thread out
    · exact Finset.sum_subset Finset.subset_union_right fun thread _ out => manyRest thread out

/-- Threads that weigh something are no more than the whole. -/
theorem Config.Sums.card_le (sums : config.Sums weight total) (threads : Finset Nat)
    (some : ∀ thread ∈ threads, 0 < weight (config.threads thread)) : threads.card ≤ total := by
  obtain ⟨all, rest, rfl⟩ := sums
  have inside : threads ⊆ all := fun thread member => by
    by_contra outside
    exact Nat.ne_of_gt (some thread member) (rest thread outside)
  calc threads.card
      = ∑ thread ∈ threads, 1 := Finset.card_eq_sum_ones threads
    _ ≤ ∑ thread ∈ threads, weight (config.threads thread) := Finset.sum_le_sum some
    _ ≤ ∑ thread ∈ all, weight (config.threads thread) := Finset.sum_le_sum_of_subset inside

/-- The whole is no more than the threads among which all that weigh one are. -/
theorem Config.Sums.le_card (sums : config.Sums weight total) (threads : Finset Nat)
    (light : ∀ thread, weight (config.threads thread) ≤ 1)
    (among : ∀ thread, weight (config.threads thread) ≠ 0 → thread ∈ threads) :
    total ≤ threads.card := by
  obtain ⟨all, -, rfl⟩ := sums
  calc ∑ thread ∈ all, weight (config.threads thread)
      ≤ ∑ thread ∈ all, (if thread ∈ threads then 1 else 0) := by
        refine Finset.sum_le_sum fun thread _ => ?_
        split
        case isTrue => exact light thread
        case isFalse outside => exact Nat.le_of_eq (not_not.mp (mt (among thread) outside))
    _ = (all ∩ threads).card := by rw [Finset.sum_ite_mem, Finset.card_eq_sum_ones]
    _ ≤ threads.card := Finset.card_le_card Finset.inter_subset_right

/-- Threads that weigh more by one of two weights make the difference of the sums. -/
theorem Config.Sums.add_card_le {lighter : Local → Nat} (light : config.Sums lighter sum)
    (heavy : config.Sums weight total) (threads : Finset Nat)
    (less : ∀ thread, lighter (config.threads thread) ≤ weight (config.threads thread))
    (more : ∀ thread ∈ threads, lighter (config.threads thread) < weight (config.threads thread)) :
    sum + threads.card ≤ total := by
  classical
  obtain ⟨few, fewRest, rfl⟩ := light
  obtain ⟨many, manyRest, rfl⟩ := heavy
  have inside : threads ⊆ many := fun thread member => by
    by_contra outside
    have some := more thread member
    rw [manyRest thread outside] at some
    exact Nat.not_lt_zero _ some
  have lightSum : ∑ thread ∈ few ∪ many, lighter (config.threads thread) =
      ∑ thread ∈ few, lighter (config.threads thread) :=
    (Finset.sum_subset Finset.subset_union_left fun thread _ out => fewRest thread out).symm
  have heavySum : ∑ thread ∈ few ∪ many, weight (config.threads thread) =
      ∑ thread ∈ many, weight (config.threads thread) :=
    (Finset.sum_subset Finset.subset_union_right fun thread _ out => manyRest thread out).symm
  calc ∑ thread ∈ few, lighter (config.threads thread) + threads.card
      = ∑ thread ∈ few ∪ many, lighter (config.threads thread) +
          ∑ thread ∈ few ∪ many, (if thread ∈ threads then 1 else 0) := by
        rw [lightSum, Finset.sum_ite_mem,
          Finset.inter_eq_right.mpr (inside.trans Finset.subset_union_right),
          Finset.card_eq_sum_ones]
    _ = ∑ thread ∈ few ∪ many,
          (lighter (config.threads thread) + if thread ∈ threads then 1 else 0) :=
        Finset.sum_add_distrib.symm
    _ ≤ ∑ thread ∈ few ∪ many, weight (config.threads thread) := by
        refine Finset.sum_le_sum fun thread _ => ?_
        split
        case isTrue member => exact more thread member
        case isFalse => exact less thread
    _ = ∑ thread ∈ many, weight (config.threads thread) := heavySum

/-- The others weigh as much or more by the heavier of two weights. -/
theorem Config.Sums.mono {lighter : Local → Nat} (light : config.Sums lighter sum)
    (heavy : config.Sums weight total) (less : ∀ state, lighter state ≤ weight state)
    (thread : Nat) :
    sum + weight (config.threads thread) ≤ total + lighter (config.threads thread) := by
  obtain ⟨few, out, -, rfl⟩ := light.split thread
  obtain ⟨many, out', rest, rfl⟩ := heavy.split thread
  have others : ∑ other ∈ few, lighter (config.threads other) ≤
      ∑ other ∈ many, weight (config.threads other) :=
    calc ∑ other ∈ few, lighter (config.threads other)
        ≤ ∑ other ∈ few ∪ many, lighter (config.threads other) :=
          Finset.sum_le_sum_of_subset Finset.subset_union_left
      _ ≤ ∑ other ∈ few ∪ many, weight (config.threads other) :=
          Finset.sum_le_sum fun other _ => less _
      _ = ∑ other ∈ many, weight (config.threads other) := by
          refine (Finset.sum_subset Finset.subset_union_right fun other member absent => ?_).symm
          refine rest other absent ?_
          rintro rfl
          exact (Finset.mem_union.mp member).elim out out'
  omega

end Weights

section Shelves

variable {Item : Type} {shelves : Nat → List Item} {count index : Nat} {out kept new : List Item}

/-- The items on so many shelves. -/
def shelved (shelves : Nat → List Item) (count : Nat) : List Item :=
  (List.range count).flatMap shelves

theorem mem_shelved {item : Item} :
    item ∈ shelved shelves count ↔ ∃ index < count, item ∈ shelves index := by
  simp [shelved]

/-- An item that is there once is on one shelf only. -/
theorem shelved_unique {item : Item} {one other : Nat} (nodup : (shelved shelves count).Nodup)
    (first : one < count) (onOne : item ∈ shelves one) (second : other < count)
    (onOther : item ∈ shelves other) : one = other := by
  by_contra apart
  have symmetric : Std.Symm (Function.onFun List.Disjoint shelves) :=
    ⟨fun _ _ => List.Disjoint.symm⟩
  have disjoint := (List.nodup_flatMap.mp nodup).2.forall (List.mem_range.mpr first)
    (List.mem_range.mpr second) apart
  exact disjoint onOne onOther

/-- Items are taken out of one shelf, and others are put there. -/
theorem shelved_update (inside : index < count)
    (moved : (out ++ kept).Perm (new ++ shelves index)) :
    (out ++ shelved (Function.update shelves index kept) count).Perm
      (new ++ shelved shelves count) := by
  have one : (List.range count).Perm (index :: (List.range count).erase index) :=
    List.perm_cons_erase (List.mem_range.mpr inside)
  have others : ((List.range count).erase index).flatMap (Function.update shelves index kept) =
      ((List.range count).erase index).flatMap shelves :=
    List.flatMap_congr fun other member =>
      Function.update_of_ne (List.nodup_range.mem_erase_iff.mp member).1 _ _
  have before := one.flatMap_right shelves
  have after := one.flatMap_right (Function.update shelves index kept)
  rw [List.flatMap_cons] at before after
  rw [Function.update_self, others] at after
  refine (after.append_left out).trans ?_
  rw [← List.append_assoc]
  refine (moved.append_right _).trans ?_
  rw [List.append_assoc]
  exact before.symm.append_left new

end Shelves

section Items

variable {Shared Local Item : Type} {config : Config Shared Local} {thread : Nat} {shared : Shared}
  {next : Local} {keeps : Shared → List Item} {holds : Local → List Item} {here later : Item → Prop}
  {issued new gone : List Item} {item : Item}

/-- The items that are here are the ones in the shared state and in the hands of the threads,
and each is there once. -/
structure Config.Places (config : Config Shared Local) (keeps : Shared → List Item)
    (holds : Local → List Item) (here : Item → Prop) : Prop where
  exclusive : config.Exclusive fun thread item => item ∈ holds thread
  distinct : ∀ thread, (keeps config.shared ++ holds (config.threads thread)).Nodup
  complete : ∀ item, here item ↔
    item ∈ keeps config.shared ∨ ∃ thread, item ∈ holds (config.threads thread)

theorem Config.Places.initial (none : keeps config.shared = [])
    (free : ∀ thread, holds (config.threads thread) = []) (nothing : ∀ item, ¬ here item) :
    config.Places keeps holds here := by
  constructor
  · intro one other item held
    rw [free] at held
    cases held
  · intro thread
    rw [none, free]
    exact List.nodup_nil
  · intro item
    simp [none, free, nothing]

/-- No item is both in the shared state and in a thread's hands. -/
theorem Config.Places.apart (places : config.Places keeps holds here)
    (kept : item ∈ keeps config.shared) : item ∉ holds (config.threads thread) :=
  fun held => (List.nodup_append.mp (places.distinct thread)).2.2 item kept item held rfl

/-- What somebody else holds is nowhere else. -/
theorem Config.Places.foreign {other : Nat} (places : config.Places keeps holds here)
    (apart : other ≠ thread) (held : item ∈ holds (config.threads other)) :
    item ∉ keeps config.shared ++ holds (config.threads thread) := by
  rw [List.mem_append]
  rintro (kept | held')
  · exact places.apart kept held
  · exact apart (places.exclusive other thread item held held')

/-- Who holds an item after a thread has moved. -/
theorem Config.put_holds (config : Config Shared Local) (thread : Nat) (shared : Shared)
    (next : Local) (holds : Local → List Item) (item : Item) :
    (∃ other, item ∈ holds ((config.put thread shared next).threads other)) ↔
      item ∈ holds next ∨ ∃ other ≠ thread, item ∈ holds (config.threads other) := by
  constructor
  · rintro ⟨other, held⟩
    obtain ⟨-, current⟩ | ⟨apart, current⟩ := config.put_cases thread shared next other
    all_goals rw [current] at held
    · exact .inl held
    · exact .inr ⟨other, apart, held⟩
  · rintro (held | ⟨other, apart, held⟩)
    · exact ⟨thread, by rwa [Config.put_self]⟩
    · exact ⟨other, by rwa [Config.put_other apart]⟩

theorem Config.exists_holds (config : Config Shared Local) (thread : Nat)
    (holds : Local → List Item) (item : Item) :
    (∃ other, item ∈ holds (config.threads other)) ↔ item ∈ holds (config.threads thread) ∨
      ∃ other ≠ thread, item ∈ holds (config.threads other) := by
  constructor
  · rintro ⟨other, held⟩
    by_cases same : other = thread
    · exact .inl (same ▸ held)
    · exact .inr ⟨other, same, held⟩
  · rintro (held | ⟨other, -, held⟩)
    · exact ⟨thread, held⟩
    · exact ⟨other, held⟩

/-- A thread moves items between the shared state and its hands; new items come, and others
go away. -/
theorem Config.Places.put (places : config.Places keeps holds here)
    (unknown : ∀ item ∈ new, ¬ here item) (nodup : new.Nodup)
    (perm : (gone ++ (keeps shared ++ holds next)).Perm
      (new ++ (keeps config.shared ++ holds (config.threads thread))))
    (now : ∀ item, later item ↔ (here item ∨ item ∈ new) ∧ item ∉ gone) :
    (config.put thread shared next).Places keeps holds later := by
  have known : ∀ item ∈ keeps config.shared ++ holds (config.threads thread), here item :=
    fun item member => (places.complete item).mpr
      ((List.mem_append.mp member).imp_right fun held => ⟨thread, held⟩)
  have own : ∀ item, item ∈ gone ∨ item ∈ keeps shared ∨ item ∈ holds next ↔
      item ∈ new ∨ item ∈ keeps config.shared ∨ item ∈ holds (config.threads thread) := by
    intro item
    simpa only [List.mem_append] using perm.mem_iff
  have foreign : ∀ other ≠ thread, ∀ item ∈ holds (config.threads other),
      item ∉ gone ∧ item ∉ keeps shared ∧ item ∉ holds next := by
    intro other apart item held
    rw [← not_or, ← not_or, own item]
    rintro (isNew | member)
    · exact unknown item isNew ((places.complete item).mpr (.inr ⟨other, held⟩))
    · exact places.foreign apart held (List.mem_append.mpr member)
  have whole : (gone ++ (keeps shared ++ holds next)).Nodup := by
    refine perm.nodup_iff.mpr (List.nodup_append.mpr ⟨nodup, places.distinct thread, ?_⟩)
    rintro item isNew other member rfl
    exact unknown item isNew (known item member)
  constructor
  · exact places.exclusive.put fun item held other apart held' =>
      (foreign other apart item held').2.2 held
  · intro other
    rw [Config.put_shared]
    obtain ⟨-, current⟩ | ⟨apart, current⟩ := config.put_cases thread shared next other
    all_goals rw [current]
    · exact whole.of_append_right
    · refine List.nodup_append.mpr ⟨whole.of_append_right.of_append_left,
        (places.distinct other).of_append_right, ?_⟩
      rintro item kept same held rfl
      exact (foreign other apart item held).2.1 kept
  · intro item
    have moved := own item
    have left : item ∈ gone → ¬ (item ∈ keeps shared ∨ item ∈ holds next) := by
      intro isGone member
      exact (List.nodup_append.mp whole).2.2 item isGone item (List.mem_append.mpr member) rfl
    have others : (∃ other ≠ thread, item ∈ holds (config.threads other)) → item ∉ gone :=
      fun ⟨other, apart, held⟩ => (foreign other apart item held).1
    rw [now, places.complete, Config.put_shared, config.put_holds, config.exists_holds thread]
    clear own known foreign
    grind

/-- A thread moves items between the shared state and its hands. -/
theorem Config.Places.move (places : config.Places keeps holds here)
    (perm : (keeps shared ++ holds next).Perm
      (keeps config.shared ++ holds (config.threads thread)))
    (same : ∀ item, later item ↔ here item) :
    (config.put thread shared next).Places keeps holds later :=
  @Config.Places.put _ _ _ _ _ _ _ _ _ _ _ [] [] places
    (fun item member => absurd member List.not_mem_nil) List.nodup_nil perm fun item => by
      simp [same]

/-- Items come and go in the shared state alone. -/
theorem Config.Places.exchange (places : config.Places keeps holds here)
    (unknown : ∀ item ∈ new, ¬ here item) (nodup : new.Nodup)
    (perm : (gone ++ keeps shared).Perm (new ++ keeps config.shared))
    (now : ∀ item, later item ↔ (here item ∨ item ∈ new) ∧ item ∉ gone) :
    ({ config with shared := shared } : Config Shared Local).Places keeps holds later := by
  have same : ({ config with shared := shared } : Config Shared Local) =
      config.put 0 shared (config.threads 0) := (Config.put_back rfl).symm
  rw [same]
  apply places.put unknown nodup ?_ now
  rw [← List.append_assoc, ← List.append_assoc]
  exact perm.append_right _

/-- The items that have been issued are the ones in the shared state and in the hands of
the threads, and each is there once. -/
structure Config.Accounts (config : Config Shared Local) (keeps : Shared → List Item)
    (holds : Local → List Item) (issued : List Item) : Prop where
  exclusive : config.Exclusive fun thread item => item ∈ holds thread
  distinct : ∀ thread, (keeps config.shared ++ holds (config.threads thread)).Nodup
  complete : ∀ item, item ∈ issued ↔
    item ∈ keeps config.shared ∨ ∃ thread, item ∈ holds (config.threads thread)

theorem Config.accounts_iff :
    config.Accounts keeps holds issued ↔ config.Places keeps holds (· ∈ issued) :=
  ⟨fun ⟨exclusive, distinct, complete⟩ => ⟨exclusive, distinct, complete⟩,
    fun ⟨exclusive, distinct, complete⟩ => ⟨exclusive, distinct, complete⟩⟩

theorem Config.Accounts.initial (none : keeps config.shared = [])
    (free : ∀ thread, holds (config.threads thread) = []) : config.Accounts keeps holds [] :=
  config.accounts_iff.mpr (.initial none free fun _ => List.not_mem_nil)

/-- No item is both in the shared state and in a thread's hands. -/
theorem Config.Accounts.apart (accounts : config.Accounts keeps holds issued)
    (kept : item ∈ keeps config.shared) : item ∉ holds (config.threads thread) :=
  Config.Places.apart (config.accounts_iff.mp accounts) kept

/-- A thread moves items between the shared state and its hands, and issues new ones. -/
theorem Config.Accounts.put (accounts : config.Accounts keeps holds issued)
    (unknown : ∀ item ∈ new, item ∉ issued) (nodup : new.Nodup)
    (perm : (keeps shared ++ holds next).Perm
      (new ++ (keeps config.shared ++ holds (config.threads thread)))) :
    (config.put thread shared next).Accounts keeps holds (issued ++ new) :=
  Config.accounts_iff.mpr (@Config.Places.put _ _ _ _ _ _ _ _ _ _ _ _ []
    (config.accounts_iff.mp accounts) unknown nodup perm fun item => by simp)

/-- A thread moves items between the shared state and its hands. -/
theorem Config.Accounts.move (accounts : config.Accounts keeps holds issued)
    (perm : (keeps shared ++ holds next).Perm
      (keeps config.shared ++ holds (config.threads thread))) :
    (config.put thread shared next).Accounts keeps holds issued :=
  Config.accounts_iff.mpr ((config.accounts_iff.mp accounts).move perm fun _ => Iff.rfl)

end Items

section Numbering

variable {Item : Type} {number : Item → Nat} {items old new : List Item}

/-- Items that are numbered in order are there once each. -/
theorem nodup_of_numbered (numbered : items.map number = List.range items.length) : items.Nodup :=
  .of_map number (numbered ▸ List.nodup_range)

/-- New items take the next numbers. -/
theorem numbered_append (before : old.map number = List.range old.length)
    (after : new.map number = List.range' old.length new.length) :
    (old ++ new).map number = List.range (old ++ new).length := by
  rw [List.map_append, before, after, List.length_append, List.range_eq_range',
    List.range_eq_range', ← List.range'_append_1, Nat.zero_add]

end Numbering

end Xten.Std.Interleaving
