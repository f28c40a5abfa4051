/-! # Queues

A queue gives out its entries in the order in which they came. The entries to be given out next stand in front, the
latest ones behind in reverse; those behind are turned round when the last entry in front is gone. What a queue holds
is `Queue.toList`, and the laws below describe every operation by it.
-/

namespace BitSerial

/-- Entries in the order in which they came. -/
structure Queue (α : Type) where
  /-- The entries that are given out next, in order. -/
  front : List α
  /-- The entries after them, the latest first. -/
  back : List α
  /-- The number of entries. -/
  length : Nat
  /-- The first entry is in front. -/
  back_eq_nil : front = [] → back = []
  length_eq : length = front.length + back.length
  deriving DecidableEq, Repr

namespace Queue

variable {α : Type}

/-- The entries in the order in which they came. -/
def toList (queue : Queue α) : List α := queue.front ++ queue.back.reverse

/-- A queue without entries. -/
def empty : Queue α := ⟨[], [], 0, fun _ => rfl, rfl⟩

/-- Adds an entry after all others. -/
def push (queue : Queue α) (entry : α) : Queue α :=
  match queue with
  | ⟨[], back, length, back_eq_nil, length_eq⟩ =>
    ⟨[entry], back, length + 1, fun h => (List.cons_ne_nil entry [] h).elim, by
      rw [length_eq, back_eq_nil rfl]; rfl⟩
  | ⟨first :: front, back, length, _, length_eq⟩ =>
    ⟨first :: front, entry :: back, length + 1, fun h => (List.cons_ne_nil first front h).elim, by
      rw [length_eq, List.length_cons, List.length_cons]; omega⟩

/-- The entry that came first. -/
def head? (queue : Queue α) : Option α := queue.front.head?

/-- The queue without the entry that came first. -/
def tail (queue : Queue α) : Queue α :=
  match queue with
  | ⟨[], _, _, _, _⟩ => empty
  | ⟨[_], back, length, _, length_eq⟩ =>
    ⟨back.reverse, [], length - 1, fun _ => rfl, by
      rw [length_eq, List.length_reverse, List.length_singleton, List.length_nil]; omega⟩
  | ⟨_ :: second :: front, back, length, _, length_eq⟩ =>
    ⟨second :: front, back, length - 1, fun h => (List.cons_ne_nil second front h).elim, by
      rw [length_eq, List.length_cons]; omega⟩

theorem toList_empty : (empty : Queue α).toList = [] := rfl

theorem toList_push (queue : Queue α) (entry : α) : (queue.push entry).toList = queue.toList ++ [entry] := by
  obtain ⟨front, back, length, back_eq_nil, length_eq⟩ := queue
  cases front with
  | nil => simp [push, toList, back_eq_nil rfl]
  | cons first front => simp [push, toList]

theorem head?_toList (queue : Queue α) : queue.toList.head? = queue.head? := by
  obtain ⟨front, back, length, back_eq_nil, length_eq⟩ := queue
  cases front with
  | nil => simp [head?, toList, back_eq_nil rfl]
  | cons first front => rfl

theorem toList_tail (queue : Queue α) : queue.tail.toList = queue.toList.tail := by
  obtain ⟨front, back, length, back_eq_nil, length_eq⟩ := queue
  match front with
  | [] => simp [tail, toList, empty, back_eq_nil rfl]
  | [first] => simp [tail, toList]
  | first :: second :: front => rfl

theorem length_toList (queue : Queue α) : queue.toList.length = queue.length := by
  rw [toList, List.length_append, List.length_reverse, queue.length_eq]

theorem length_push (queue : Queue α) (entry : α) : (queue.push entry).length = queue.length + 1 := by
  rw [← length_toList, toList_push, List.length_append, length_toList, List.length_singleton]

/-- A queue that holds nothing is the empty one. -/
theorem eq_empty_iff (queue : Queue α) : queue = empty ↔ queue.toList = [] := by
  obtain ⟨front, back, length, back_eq_nil, length_eq⟩ := queue
  constructor
  · intro h
    rw [h, toList_empty]
  · intro h
    obtain ⟨rfl, hback⟩ := List.append_eq_nil_iff.1 h
    obtain rfl := back_eq_nil rfl
    obtain rfl := length_eq
    rfl

end Queue

end BitSerial
