-- SUMMARY: The priority queue of `internal/tools`, first in first out within a priority, and the stable sort it computes.
import Go42.Lib.StableSort
import Go42.Lib.Steps
import Mathlib.Data.List.AList

/-!
# Priority queue

A queue for each priority in use, and the priorities in ascending order. What a queue
holds, with the priorities, is one sorted list, which `Extract` returns and `Dequeue`
consumes from the front.
-/

namespace Go42.Tools

variable {α : Type}

/-- `queues[priority]`: a missing key reads as an empty slice. -/
def itemsAt (queues : AList fun _ : ℤ => List α) (priority : ℤ) : List α :=
  (queues.lookup priority).getD []

structure PriorityQueue (α : Type) where
  queues : AList fun _ : ℤ => List α
  priorities : List ℤ
  sorted : priorities.Pairwise (· < ·)
  keys : ∀ p, p ∈ priorities ↔ p ∈ queues
  filled : ∀ p ∈ priorities, itemsAt queues p ≠ []

section Items

variable {queues : AList fun _ : ℤ => List α} {p p' : ℤ} {items : List α}

@[simp] theorem itemsAt_insert_self : itemsAt (queues.insert p items) p = items := by
  simp [itemsAt]

theorem itemsAt_insert_ne (h : p' ≠ p) : itemsAt (queues.insert p items) p' = itemsAt queues p' := by
  simp [itemsAt, AList.lookup_insert_ne h]

theorem itemsAt_erase_ne (h : p' ≠ p) : itemsAt (queues.erase p) p' = itemsAt queues p' := by
  simp [itemsAt, AList.lookup_erase_ne h]

theorem itemsAt_eq_nil (h : p ∉ queues) : itemsAt queues p = [] := by
  simp [itemsAt, AList.lookup_eq_none.mpr h]

end Items

namespace PriorityQueue

/-- `NewPriorityQueue`. -/
def new : PriorityQueue α where
  queues := ∅
  priorities := []
  sorted := List.Pairwise.nil
  keys := by simp
  filled := by simp

variable (pq : PriorityQueue α)

/-- The priorities with a new one appended and sorted by `sort.Ints`. -/
def addPriority (priority : ℤ) : List ℤ :=
  if priority ∈ pq.queues then pq.priorities
  else (pq.priorities ++ [priority]).insertionSort (· ≤ ·)

theorem mem_addPriority {priority p : ℤ} :
    p ∈ pq.addPriority priority ↔ p = priority ∨ p ∈ pq.priorities := by
  unfold addPriority
  split
  case isTrue h =>
    constructor
    · exact Or.inr
    · rintro (rfl | hp)
      · exact (pq.keys p).mpr h
      · exact hp
  case isFalse h => simp [List.mem_insertionSort, or_comm]

theorem addPriority_sorted (priority : ℤ) : (pq.addPriority priority).Pairwise (· < ·) := by
  unfold addPriority
  split
  case isTrue h => exact pq.sorted
  case isFalse h =>
    have hnodup : (pq.priorities ++ [priority]).Nodup := by
      apply List.Nodup.append (pq.sorted.imp ne_of_lt) (List.nodup_singleton _)
      simpa [pq.keys] using h
    have hsorted := List.pairwise_insertionSort (· ≤ ·) (pq.priorities ++ [priority])
    have hnodup' := (List.perm_insertionSort (· ≤ ·) (pq.priorities ++ [priority])).nodup_iff.mpr
      hnodup
    exact (hsorted.and hnodup').imp fun hab => lt_of_le_of_ne hab.1 hab.2

/-- `Enqueue`. -/
def enqueue (priority : ℤ) (value : α) : PriorityQueue α where
  queues := pq.queues.insert priority (itemsAt pq.queues priority ++ [value])
  priorities := pq.addPriority priority
  sorted := pq.addPriority_sorted priority
  keys p := by rw [mem_addPriority, AList.mem_insert, pq.keys]
  filled p hp := by
    rcases eq_or_ne p priority with rfl | hne
    · simp
    · rw [itemsAt_insert_ne hne]
      exact pq.filled p ((pq.mem_addPriority.mp hp).resolve_left hne)

/-- `IsEmpty`. -/
def isEmpty : Bool := pq.priorities.isEmpty

/-- The queue without the first priority, whose last item was taken. -/
def dropFirst (p : ℤ) (rest : List ℤ) (h : pq.priorities = p :: rest) : PriorityQueue α where
  queues := pq.queues.erase p
  priorities := rest
  sorted := (h ▸ pq.sorted).of_cons
  keys q := by
    have hlt : p ∉ rest := fun hp => lt_irrefl p (List.rel_of_pairwise_cons (h ▸ pq.sorted) hp)
    rw [AList.mem_erase, ← pq.keys, h, List.mem_cons]
    constructor
    · exact fun hq => ⟨fun heq => hlt (heq ▸ hq), .inr hq⟩
    · exact fun hq => hq.2.resolve_left hq.1
  filled q hq := by
    have hne : q ≠ p := ne_of_gt (List.rel_of_pairwise_cons (h ▸ pq.sorted) hq)
    rw [itemsAt_erase_ne hne]
    exact pq.filled q (h ▸ List.mem_cons_of_mem p hq)

/-- The queue with the first item of priority `p` taken, when `items` remain. -/
def keepFirst (p : ℤ) (items : List α) (hp : p ∈ pq.priorities) (h : items ≠ []) :
    PriorityQueue α where
  queues := pq.queues.insert p items
  priorities := pq.priorities
  sorted := pq.sorted
  keys q := by
    rw [AList.mem_insert, ← pq.keys]
    exact (or_iff_right_of_imp fun heq => heq ▸ hp).symm
  filled q hq := by
    rcases eq_or_ne q p with rfl | hne
    · rwa [itemsAt_insert_self]
    · rw [itemsAt_insert_ne hne]
      exact pq.filled q hq

/-- `Dequeue`. -/
def dequeue : Option (α × PriorityQueue α) :=
  match h : pq.priorities with
  | [] => none
  | p :: rest =>
    match itemsAt pq.queues p with
    | [] => none
    | [value] => some (value, pq.dropFirst p rest h)
    | value :: item :: items =>
      some (value, pq.keepFirst p (item :: items) (h ▸ List.mem_cons_self) (List.cons_ne_nil _ _))

/-- `Extract`. -/
def extract : List α := pq.priorities.flatMap (itemsAt pq.queues)

/-! ## What a queue holds -/

/-- The items with their priorities, in the order in which they leave. -/
def entries : List (ℤ × α) :=
  pq.priorities.flatMap fun p => (itemsAt pq.queues p).map fun item => (p, item)

theorem extract_eq : pq.extract = pq.entries.map Prod.snd := by
  simp [extract, entries, List.map_flatMap, Function.comp_def]

theorem entries_pairwise : pq.entries.Pairwise fun a b => byKey a b = true := by
  rw [entries, List.pairwise_flatMap]
  constructor
  · intro p _
    rw [List.pairwise_map]
    exact List.pairwise_of_forall (by simp [byKey])
  · apply pq.sorted.imp
    intro p p' hlt a ha b hb
    obtain ⟨_, _, rfl⟩ := List.mem_map.mp ha
    obtain ⟨_, _, rfl⟩ := List.mem_map.mp hb
    simp [byKey, hlt.le]

/-- The entries of `p` among those of distinct priorities. -/
theorem atKey_flatMap {queues : AList fun _ : ℤ => List α} {p : ℤ} {ps : List ℤ} (h : ps.Nodup) :
    atKey p (ps.flatMap fun q => (itemsAt queues q).map fun item => (q, item)) =
      if p ∈ ps then (itemsAt queues p).map fun item => (p, item) else [] := by
  induction ps with
  | nil => simp
  | cons q ps ih =>
      have hself : atKey p ((itemsAt queues q).map fun item => (q, item)) =
          if q = p then (itemsAt queues q).map fun item => (q, item) else [] := by
        split
        case isTrue heq => simp [atKey, heq]
        case isFalse hne => simp [atKey, hne]
      rw [List.flatMap_cons, atKey_append, hself, ih h.of_cons]
      rcases eq_or_ne q p with rfl | hne
      · simp [List.Nodup.notMem h]
      · simp [hne, Ne.symm hne]

/-- At each priority the entries are its queue. -/
theorem entries_atKey (p : ℤ) :
    atKey p pq.entries = (itemsAt pq.queues p).map fun item => (p, item) := by
  rw [entries, atKey_flatMap (pq.sorted.imp ne_of_lt)]
  split
  case isTrue h => rfl
  case isFalse h => rw [itemsAt_eq_nil (fun hp => h ((pq.keys p).mpr hp)), List.map_nil]

@[simp] theorem entries_new : (new : PriorityQueue α).entries = [] := rfl

/-- An item goes behind the items of its priority. -/
theorem entries_enqueue (priority p : ℤ) (value : α) :
    atKey p (pq.enqueue priority value).entries = atKey p (pq.entries ++ [(priority, value)]) := by
  rw [atKey_append, entries_atKey, entries_atKey]
  rcases eq_or_ne p priority with rfl | hne
  · simp [enqueue, atKey]
  · simp [enqueue, itemsAt_insert_ne hne, atKey, hne.symm]

/-- Enqueue a list of items. -/
def enqueueAll (items : List (ℤ × α)) : PriorityQueue α :=
  items.foldl (fun pq item => pq.enqueue item.1 item.2) pq

theorem entries_enqueueAll (p : ℤ) (items : List (ℤ × α)) :
    atKey p (pq.enqueueAll items).entries = atKey p (pq.entries ++ items) := by
  induction items generalizing pq with
  | nil => simp [enqueueAll]
  | cons item items ih =>
      have hstep := pq.entries_enqueue item.1 p item.2
      have htail := ih (pq.enqueue item.1 item.2)
      rw [atKey_append, hstep, ← atKey_append, List.append_assoc, List.singleton_append] at htail
      exact htail

/-- The queue sorts what is enqueued, and keeps the order of enqueuing within a priority. -/
theorem extract_enqueueAll (items : List (ℤ × α)) :
    (new.enqueueAll items).extract = (stableSort items).map Prod.snd := by
  rw [extract_eq]
  congr 1
  apply eq_stableSort (entries_pairwise _)
  intro p
  rw [entries_enqueueAll, entries_new, List.nil_append]

/-- `Dequeue` takes the first entry and leaves the others in their order. -/
theorem dequeue_entries :
    (pq.dequeue = none ∧ pq.entries = []) ∨
      ∃ p value pq', pq.dequeue = some (value, pq') ∧ pq.entries = (p, value) :: pq'.entries := by
  unfold dequeue
  split
  case h_1 h => exact .inl ⟨rfl, by rw [entries, h, List.flatMap_nil]⟩
  case h_2 p rest h =>
    have hp : p ∉ rest := fun hp => lt_irrefl p (List.rel_of_pairwise_cons (h ▸ pq.sorted) hp)
    -- The queues of the other priorities are as they were.
    have hrest (queues : AList fun _ : ℤ => List α)
        (hq : ∀ q, q ≠ p → itemsAt queues q = itemsAt pq.queues q) :
        rest.flatMap (fun q => (itemsAt pq.queues q).map fun item => (q, item)) =
          rest.flatMap fun q => (itemsAt queues q).map fun item => (q, item) :=
      List.flatMap_congr fun q hmem => by rw [hq q fun heq => hp (heq ▸ hmem)]
    split
    case h_1 hitems => exact absurd hitems (pq.filled p (h ▸ List.mem_cons_self))
    case h_2 value hitems =>
      refine .inr ⟨p, value, _, rfl, ?_⟩
      simp only [entries, dropFirst, h, List.flatMap_cons, hitems, List.map_cons, List.map_nil,
        List.singleton_append]
      rw [hrest _ fun q => itemsAt_erase_ne]
    case h_3 value item items hitems =>
      refine .inr ⟨p, value, _, rfl, ?_⟩
      simp only [entries, keepFirst, h, List.flatMap_cons, hitems, itemsAt_insert_self,
        List.map_cons, List.cons_append]
      rw [hrest _ fun q => itemsAt_insert_ne]

/-- `Dequeue` takes the items in the order of `Extract`. -/
theorem dequeue_extract :
    pq.extract = (pq.dequeue.map fun r => r.1 :: r.2.extract).getD [] := by
  rw [extract_eq]
  cases pq.dequeue_entries with
  | inl h => rw [h.1, h.2]; rfl
  | inr h =>
      obtain ⟨p, value, pq', hdequeue, hentries⟩ := h
      rw [hdequeue, hentries, List.map_cons, ← extract_eq]
      rfl

/-- The values that `n` calls of `Dequeue` give. -/
def dequeueMany : ℕ → PriorityQueue α → List α
  | 0, _ => []
  | n + 1, pq =>
    match pq.dequeue with
    | none => []
    | some (value, pq') => value :: dequeueMany n pq'

theorem dequeueMany_eq (n : ℕ) (pq : PriorityQueue α) : dequeueMany n pq = pq.extract.take n := by
  induction n generalizing pq with
  | zero => rw [dequeueMany, List.take_zero]
  | succ n ih =>
      rw [dequeueMany, dequeue_extract]
      split
      case h_1 h => rw [h]; rfl
      case h_2 value pq' h =>
        rw [h, ih]
        rfl

theorem isEmpty_iff : pq.isEmpty = true ↔ pq.entries = [] := by
  rw [isEmpty, List.isEmpty_iff, entries, List.flatMap_eq_nil_iff]
  constructor
  · intro h
    simp [h]
  · intro h
    apply List.eq_nil_iff_forall_not_mem.mpr
    intro p hp
    exact pq.filled p hp (List.map_eq_nil_iff.mp (h p hp))

/-! ## Runs of operations -/

inductive Op (α : Type) where
  | enqueue (priority : ℤ) (value : α)
  | dequeue
  | isEmpty
  | extract

inductive Reply (α : Type) where
  | done
  | dequeued (value : Option α)
  | empty (answer : Bool)
  | extracted (values : List α)

/-- One operation. A `Dequeue` that fails leaves the queue as it is. -/
def apply (pq : PriorityQueue α) : Op α → Reply α × PriorityQueue α
  | .enqueue priority value => (.done, pq.enqueue priority value)
  | .dequeue =>
    match pq.dequeue with
    | none => (.dequeued none, pq)
    | some (value, pq') => (.dequeued (some value), pq')
  | .isEmpty => (.empty pq.isEmpty, pq)
  | .extract => (.extracted pq.extract, pq)

/-- What a queue is for: the pairs that have not left yet, in stable ascending order. -/
def pendingApply (pending : List (ℤ × α)) : Op α → Reply α × List (ℤ × α)
  | .enqueue priority value => (.done, stableSort (pending ++ [(priority, value)]))
  | .dequeue => (.dequeued (pending.head?.map Prod.snd), pending.tail)
  | .isEmpty => (.empty pending.isEmpty, pending)
  | .extract => (.extracted (pending.map Prod.snd), pending)

/-- The queue after a list of operations. -/
def after (pq : PriorityQueue α) (ops : List (Op α)) : PriorityQueue α :=
  ops.foldl (fun pq op => (pq.apply op).2) pq

theorem apply_entries (op : Op α) :
    ((pq.apply op).1, (pq.apply op).2.entries) = pendingApply pq.entries op := by
  cases op with
  | enqueue priority value =>
      have hsort : (pq.enqueue priority value).entries =
          stableSort (pq.entries ++ [(priority, value)]) :=
        eq_stableSort (entries_pairwise _) fun p => entries_enqueue ..
      rw [apply, pendingApply, hsort]
  | dequeue =>
      cases pq.dequeue_entries with
      | inl h => rw [apply, pendingApply, h.1, h.2]; simp
      | inr h =>
          obtain ⟨p, value, pq', hdequeue, hentries⟩ := h
          rw [apply, pendingApply, hdequeue, hentries]
          rfl
  | isEmpty =>
      have hempty : pq.isEmpty = pq.entries.isEmpty :=
        Bool.eq_iff_iff.mpr (pq.isEmpty_iff.trans List.isEmpty_iff.symm)
      rw [apply, pendingApply, hempty]
  | extract => rw [apply, pendingApply, extract_eq]

/-- Whatever the operations, a new queue answers like the stable ascending list, and in every
state its two structures are in step. -/
theorem priorityQueue_correct (ops : List (Op α)) :
    ((answers apply new ops).map fun r => (r.1, r.2.entries)) = answers pendingApply [] ops ∧
      (∀ n, dequeueMany n (new.after ops) = (new.after ops).extract.take n) ∧
      (new.after ops).priorities.Pairwise (· < ·) ∧
      (∀ p, p ∈ (new.after ops).priorities ↔ p ∈ (new.after ops).queues) ∧
      ∀ p ∈ (new.after ops).queues, itemsAt (new.after ops).queues p ≠ [] := by
  refine ⟨?_, fun n => dequeueMany_eq n _, (new.after ops).sorted, (new.after ops).keys, ?_⟩
  · have hmap : ((answers apply new ops).map fun r => (r.1, r.2.entries)) =
        (answers pendingApply [] ops).map id := by
      apply answers_map (R := fun pq pending => pq.entries = pending) (P := fun _ => True)
      · intro pq pending op _ h
        rw [← h]
        exact ⟨pq.apply_entries op, congrArg Prod.snd (pq.apply_entries op)⟩
      · exact entries_new
      · exact fun _ _ => trivial
    rw [hmap, List.map_id]
  · intro p hp
    exact (new.after ops).filled p (((new.after ops).keys p).mpr hp)

end PriorityQueue
end Go42.Tools
