/-! A first-in first-out queue that never holds more than its capacity. -/

namespace Lib

structure Fifo (Item : Type u) (capacity : Nat) where
  items : List Item
  bounded : items.length ≤ capacity

namespace Fifo

variable {Item : Type u} {capacity : Nat} {queue next : Fifo Item capacity}

def empty : Fifo Item capacity := ⟨[], Nat.zero_le _⟩

def Full (queue : Fifo Item capacity) : Prop := queue.items.length = capacity

/-- Enqueue at the back, `none` when the queue is full. -/
def push? (queue : Fifo Item capacity) (item : Item) : Option (Fifo Item capacity) :=
  if room : queue.items.length < capacity then
    some ⟨queue.items ++ [item], by rw [List.length_append]; exact room⟩
  else none

/-- Dequeue the oldest item, `none` when the queue is empty. -/
def pop? : Fifo Item capacity → Option (Item × Fifo Item capacity)
  | ⟨[], _⟩ => none
  | ⟨item :: rest, bounded⟩ => some (item, ⟨rest, Nat.le_of_succ_le bounded⟩)

theorem push?_eq_some (pushed : queue.push? item = some next) : next.items = queue.items ++ [item] := by
  unfold push? at pushed
  split at pushed
  · cases pushed
    rfl
  · cases pushed

theorem push?_eq_none_iff : queue.push? item = none ↔ queue.Full := by
  have bounded := queue.bounded
  unfold push? Full
  split
  · simp only [reduceCtorEq, false_iff]
    omega
  · simp only [true_iff]
    omega

theorem pop?_eq_some (popped : queue.pop? = some (item, next)) : queue.items = item :: next.items := by
  obtain ⟨items, bounded⟩ := queue
  cases items with
  | nil => cases popped
  | cons first rest =>
    cases popped
    rfl

end Fifo

end Lib
