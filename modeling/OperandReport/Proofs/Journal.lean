import Mathlib.Data.List.DropRight
import Mathlib.Data.List.Rotate
import OperandReport.Journal.Ring
import OperandReport.Proofs.Runs

/-!
# The journal holds the newest lines

Let `kept` be the lines that were appended since the journal was last cleared.  Its line at
position `j` went to cell `j % capacity`, and it is still there while fewer than `capacity` lines
came after it.  `Ring.Holds` says that, and where the next line goes; it does not say what is in
the other cells, which may have lines from before the clearing.

Reading the cells from `next` on and around the end rotates them.  In a full journal that starts
at the oldest line that is left; before the first wrap the lines stand in order already.

## Main results

* `Ring.handle_holds`: one request.
* `Ring.after_holds_newest`: the lines after any requests.
-/

namespace OperandReport.Ring

variable {capacity : Nat}

/-- The request adds a line. -/
def Request.isAppend : Request → Bool
  | .append _ => true
  | .clear => false

/-- The line that a request adds. -/
def Request.line? : Request → Option Line
  | .append line => some line
  | .clear => none

/-- The lines that were appended since the journal was last cleared, or from the start. -/
def sinceClear (history : List Request) : List Line :=
  (history.rtakeWhile Request.isAppend).filterMap Request.line?

theorem sinceClear_append (history : List Request) (line : Line) :
    sinceClear (history ++ [.append line]) = sinceClear history ++ [line] := by
  rw [sinceClear, List.rtakeWhile_concat_pos _ _ _ rfl, List.filterMap_append]
  rfl

theorem sinceClear_clear (history : List Request) : sinceClear (history ++ [.clear]) = [] := by
  rw [sinceClear, List.rtakeWhile_concat_neg _ _ _ Bool.false_ne_true]
  rfl

/-- The newest of the kept lines stand where the wrapping puts them. -/
structure Holds (ring : Ring capacity) (kept : List Line) : Prop where
  next : ring.next = kept.length % capacity
  count : ring.count = min kept.length capacity
  cells : ∀ j < kept.length, kept.length ≤ j + capacity → ring.cells[j % capacity]? = kept[j]?

/-- A journal that starts over holds nothing, whatever is in its cells. -/
theorem holds_nil (cells : Cells Line capacity) : Holds { cells } [] where
  next := (Nat.zero_mod capacity).symm
  count := (Nat.zero_min capacity).symm
  cells _ hj := absurd hj (Nat.not_lt_zero _)

variable {ring : Ring capacity} {kept : List Line}

/-- Fewer than `capacity` lines later, another cell is written. -/
theorem mod_ne_mod {j k : Nat} (hLater : j < k) (hNear : k < j + capacity) :
    j % capacity ≠ k % capacity := by
  intro hSame
  have hZero : (k - j) % capacity = 0 := Nat.sub_mod_eq_zero_of_mod_eq hSame.symm
  rw [Nat.mod_eq_of_lt (by omega)] at hZero
  omega

/-! ## One request -/

/-- The next line goes to a cell that is free, or to the one of the oldest line. -/
theorem Holds.append (h : ring.Holds kept) (hCapacity : 0 < capacity) (line : Line) :
    (ring.handle (.append line)).1 = .ok () ∧
      (ring.handle (.append line)).2.Holds (kept ++ [line]) := by
  have hCell : ring.next < capacity := by
    rw [h.next]
    exact Nat.mod_lt _ hCapacity
  have hHandle : ring.handle (.append line) = (.ok (), {
      cells := ring.cells.set ring.next line
      next := (ring.next + 1) % capacity
      count := min (ring.count + 1) capacity }) := by
    simp [handle, write, Cells.change_eq_ok hCell, Except.map]
  have hLength : (kept ++ [line]).length = kept.length + 1 := List.length_append
  rw [hHandle]
  refine ⟨rfl, ?_, ?_, fun j hj hNear => ?_⟩
  · show (ring.next + 1) % capacity = _
    rw [h.next, Nat.mod_add_mod, hLength]
  · show min (ring.count + 1) capacity = _
    rw [h.count, hLength]
    omega
  · show (ring.cells.set ring.next line)[j % capacity]? = _
    rw [hLength] at hj hNear
    -- The new line is in the cell that was written.  The others that still count are fewer than
    -- `capacity` lines older, so they are in other cells.
    by_cases hLast : j = kept.length
    · rw [hLast, ← h.next, Vector.getElem?_set_self, List.getElem?_concat_length]
    · have hBefore : j < kept.length := by omega
      have hOther : ring.next ≠ j % capacity := by
        rw [h.next]
        exact (mod_ne_mod hBefore (by omega)).symm
      rw [Vector.getElem?_set_ne hCell hOther, List.getElem?_append_left hBefore]
      exact h.cells j hBefore (by omega)

/-- A journal with a cell refuses nothing, and holds what the request keeps. -/
theorem handle_holds (hCapacity : 0 < capacity) {history : List Request}
    (h : ring.Holds (sinceClear history)) (request : Request) :
    (ring.handle request).1 = .ok () ∧
      (ring.handle request).2.Holds (sinceClear (history ++ [request])) := by
  cases request with
  | append line =>
      rw [sinceClear_append]
      exact h.append hCapacity line
  | clear =>
      rw [sinceClear_clear]
      exact ⟨rfl, holds_nil ring.cells⟩

/-! ## Reading -/

/-- Reading around the end from the cell of the oldest line meets the lines in order. -/
theorem Holds.rotate (h : ring.Holds kept) (hFull : capacity ≤ kept.length)
    (hCapacity : 0 < capacity) :
    ring.cells.toList.drop ring.next ++ ring.cells.toList.take ring.next =
      kept.drop (kept.length - capacity) := by
  have hNext : ring.next < capacity := by
    rw [h.next]
    exact Nat.mod_lt _ hCapacity
  have hLength : ring.cells.toList.length = capacity := Vector.length_toList
  rw [← List.rotate_eq_drop_append_take (by omega)]
  refine List.ext_getElem? fun i => ?_
  rw [List.getElem?_drop]
  by_cases hi : i < capacity
  · have hPlace : (i + ring.next) % capacity = (kept.length - capacity + i) % capacity := by
      rw [h.next, Nat.add_mod_mod, ← Nat.add_mod_right (kept.length - capacity + i)]
      congr 1
      omega
    have hRead : i < ring.cells.toList.length := by omega
    rw [List.getElem?_rotate hRead, hLength, Vector.getElem?_toList, hPlace]
    exact h.cells _ (by omega) (by omega)
  · rw [List.getElem?_eq_none (by rw [List.length_rotate]; omega),
      List.getElem?_eq_none (by omega)]

/-- Before the first wrap the lines are the first cells. -/
theorem Holds.take (h : ring.Holds kept) (hRoom : kept.length < capacity) :
    ring.cells.toList.take kept.length = kept := by
  refine List.ext_getElem? fun i => ?_
  rw [List.getElem?_take]
  split
  · next hi =>
    have hCell := h.cells i hi (by omega)
    rw [Nat.mod_eq_of_lt (by omega)] at hCell
    rw [Vector.getElem?_toList, hCell]
  · next hPast => rw [List.getElem?_eq_none (Nat.le_of_not_lt hPast)]

/-- The lines are the newest of the kept ones, as many as there are cells. -/
theorem Holds.lines (h : ring.Holds kept) (hCapacity : 0 < capacity) :
    ring.lines = kept.drop (kept.length - capacity) := by
  have hCount := h.count
  rw [Ring.lines]
  split
  · next hRoom =>
    have hFew : kept.length < capacity := by omega
    have hAll : ring.count = kept.length := by omega
    rw [hAll, h.take hFew, Nat.sub_eq_zero_of_le (Nat.le_of_lt hFew), List.drop_zero]
  · next hFull => exact h.rotate (by omega) hCapacity

/-! ## Any requests -/

theorem after_holds (hCapacity : 0 < capacity) (history : List Request) :
    (after handle (empty : Ring capacity) history).Holds (sinceClear history) := by
  -- From the end, since what is kept depends on the last clearing.
  induction history using List.reverseRecOn with
  | nil => exact holds_nil _
  | append_singleton history request ih =>
      rw [after_concat]
      exact (handle_holds hCapacity ih request).2

/-- After any requests a journal with a cell holds the newest of the lines that were appended
since it was last cleared, oldest first, as many as there are cells, and refuses nothing. -/
theorem after_holds_newest {capacity : Nat} (hCapacity : 0 < capacity) (history : List Request)
    (request : Request) :
    let ring : Ring capacity := after handle empty history
    let kept := sinceClear history
    ring.lines = kept.drop (kept.length - capacity) ∧
      ring.size = min capacity kept.length ∧
      ring.lines.length = ring.size ∧
      (ring.handle request).1 = .ok () := by
  intro ring kept
  have hHolds : ring.Holds kept := after_holds hCapacity history
  have hLines := hHolds.lines hCapacity
  have hSize : ring.size = min capacity kept.length := hHolds.count.trans (Nat.min_comm _ _)
  refine ⟨hLines, hSize, ?_, (handle_holds hCapacity hHolds request).1⟩
  rw [hLines, hSize, List.length_drop]
  omega

/-- A journal of two lines that is cleared and then wraps around. -/
theorem after_holds_newest_wrapped :
    0 < 2 ∧
      (after handle (empty : Ring 2) [.append ⟨"old", .trace⟩, .clear, .append ⟨"a", .notify⟩,
        .append ⟨"b", .warning⟩, .append ⟨"c", .trace⟩]).lines =
        [⟨"b", .warning⟩, ⟨"c", .trace⟩] := by
  refine ⟨by decide, ?_⟩
  exact (after_holds_newest (by decide) _ .clear).1

end OperandReport.Ring
