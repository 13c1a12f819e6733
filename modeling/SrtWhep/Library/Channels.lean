import Mathlib.Data.List.Basic

namespace SrtWhep.Library.Channels

/-- A bounded first-in first-out channel. -/
structure Channel (T : Type) (capacity : Nat) where
  queue : List T
  bounded : queue.length ≤ capacity
deriving DecidableEq

variable {T : Type} {capacity : Nat} {c c' : Channel T capacity} {x y : T}

namespace Channel

def empty : Channel T capacity := ⟨[], Nat.zero_le _⟩

/-- Send without waiting. What finds the channel full is dropped, and the
sender is told. -/
def trySend (c : Channel T capacity) (x : T) : Channel T capacity × Bool :=
  if h : c.queue.length < capacity then
    (⟨c.queue ++ [x], by simpa using Nat.succ_le_of_lt h⟩, true)
  else (c, false)

def tryRecv (c : Channel T capacity) : Option (T × Channel T capacity) :=
  match c with
  | ⟨[], _⟩ => none
  | ⟨x :: xs, h⟩ => some (x, ⟨xs, Nat.le_of_succ_le h⟩)

theorem trySend_of_lt (h : c.queue.length < capacity) :
    (c.trySend x).2 = true ∧ (c.trySend x).1.queue = c.queue ++ [x] := by
  rw [trySend, dif_pos h]
  exact ⟨rfl, rfl⟩

theorem trySend_of_full (h : c.queue.length = capacity) : c.trySend x = (c, false) :=
  dif_neg (by omega)

theorem trySend_cases (c : Channel T capacity) (x : T) :
    (c.queue.length < capacity ∧ (c.trySend x).2 = true ∧
        (c.trySend x).1.queue = c.queue ++ [x]) ∨
      (c.queue.length = capacity ∧ c.trySend x = (c, false)) := by
  by_cases h : c.queue.length < capacity
  · exact .inl ⟨h, trySend_of_lt h⟩
  · have hb := c.bounded
    exact .inr ⟨by omega, trySend_of_full (by omega)⟩

theorem mem_trySend (h : y ∈ c.queue) : y ∈ (c.trySend x).1.queue := by
  obtain ⟨-, -, hq⟩ | ⟨-, hq⟩ := trySend_cases c x
  · rw [hq]
    exact List.mem_append_left _ h
  · rw [hq]
    exact h

theorem tryRecv_eq_none : c.tryRecv = none ↔ c.queue = [] := by
  obtain ⟨_ | ⟨y, ys⟩, h⟩ := c <;> simp [tryRecv]

theorem tryRecv_eq_some : c.tryRecv = some (x, c') ↔ c.queue = x :: c'.queue := by
  obtain ⟨_ | ⟨y, ys⟩, h⟩ := c
  · simp [tryRecv]
  · obtain ⟨zs, h'⟩ := c'
    simp [tryRecv]

end Channel

end SrtWhep.Library.Channels
