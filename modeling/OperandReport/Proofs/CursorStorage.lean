import OperandReport.Cursor.Storage
import OperandReport.Proofs.Runs

/-!
# Cursors are lists with an open end

What a cursor is to its callers is a list, oldest first, and at most one element behind it that
is open.  `OpenList.handle` says what each request does to it, in terms of the list alone.

The storage of a cursor keeps this list in the first of its cells and the open element in the
cell behind them; `Storage.Holds` relates the two.  A request to the storage is answered as the
list answers it, the storage holds the resulting list, and a request that is refused has not
changed a single cell.  The check against the capacity is made where an element is added and
not where it is closed, and yet no cell is ever missed: an open element has its cell already.

The cursor that reports are assembled on keeps its elements newest first, without cells.  It
answers every request in the same way.

## Main results

* `Cursor.Storage.handle_refines`: one request, to a storage that holds a list.
* `Cursor.after_refines_openList`: any request after any run of requests on an empty storage.
-/

namespace OperandReport

/-- A list, oldest first, and at most one element behind it that is open. -/
structure OpenList (α : Type) where
  completed : List α := []
  pending : Option α := none

namespace OpenList

open Cursor (Request Reply)

variable {α : Type} {capacity : Nat}

/-- The element at a distance from the end: `0` is the open one, `-1` the newest completed
one. -/
def at? (x : OpenList α) : Int → Option α
  | .ofNat 0 => x.pending
  | .ofNat (_ + 1) => none
  | .negSucc k => x.completed.reverse[k]?

/-- Changes the element at a distance from the end. -/
def changeAt (x : OpenList α) (offset : Int) (f : α → α) : OpenList α :=
  match offset with
  | .ofNat 0 => { x with pending := x.pending.map f }
  | .ofNat (_ + 1) => x
  | .negSucc k => { x with completed := (x.completed.reverse.modify k f).reverse }

/-- What a request does to a list that is limited to a capacity. -/
def handle (capacity : Nat) (x : OpenList α) :
    Request α → Except Refusal (Reply α) × OpenList α
  | .push a =>
    if x.pending.isSome then (.error (.fault .addedWhileOpen), x)
    else if x.completed.length = capacity then (.error (.fault (.operandsFull capacity)), x)
    else (.ok (.position x.completed.length), { x with completed := x.completed ++ [a] })
  | .start a =>
    if x.pending.isSome then (.error (.fault .openedTwice), x)
    else if x.completed.length = capacity then (.error (.fault (.operandsFull capacity)), x)
    else (.ok .done, { x with pending := some a })
  | .changeOpen f =>
    match x.pending with
    | none => (.error (.fault .notOpen), x)
    | some a => (.ok .done, { x with pending := some (f a) })
  | .close =>
    match x.pending with
    | none => (.error (.fault .notOpen), x)
    | some a => (.ok .done, { completed := x.completed ++ [a] })
  | .look offset => (.ok (.seen (x.at? offset)), x)
  | .changeAt offset f =>
    if (x.at? offset).isSome then (.ok .done, x.changeAt offset f)
    else (.error (.fault (.operandMissing offset x.completed.length x.pending.isSome)), x)
  | .changeLast f => (.ok (.found !x.completed.isEmpty), x.changeAt (-1) f)
  | .index i =>
    match x.completed[i]? with
    | some a => (.ok (.operand a), x)
    | none => (.error (.pastEnd i x.completed.length), x)

/-- The requests that are refused: adding while an element is open or the list is full, changing
or closing an open element that is not there, and places outside the list. -/
def Refuses (capacity : Nat) (x : OpenList α) : Request α → Prop
  | .push _ | .start _ => x.pending.isSome = true ∨ x.completed.length = capacity
  | .changeOpen _ | .close => x.pending = none
  | .changeAt offset _ =>
    offset < -x.completed.length ∨ 0 < offset ∨ offset = 0 ∧ x.pending = none
  | .index i => x.completed.length ≤ i
  | .look _ | .changeLast _ => False

/-- The list is no longer than the capacity, and shorter while an element is open. -/
structure Fits (capacity : Nat) (x : OpenList α) : Prop where
  length_le : x.completed.length ≤ capacity
  length_lt : x.pending.isSome = true → x.completed.length < capacity

theorem at?_eq_none_iff {x : OpenList α} {offset : Int} :
    x.at? offset = none ↔
      offset < -x.completed.length ∨ 0 < offset ∨ offset = 0 ∧ x.pending = none := by
  match offset with
  | .ofNat 0 =>
      simp only [at?, Int.ofNat_eq_natCast]
      constructor
      · exact fun hNone => .inr (.inr ⟨rfl, hNone⟩)
      · rintro (h | h | ⟨_, hNone⟩)
        · omega
        · omega
        · exact hNone
  | .ofNat (k + 1) =>
      refine iff_of_true rfl (.inr (.inl ?_))
      simp only [Int.ofNat_eq_natCast]
      omega
  | .negSucc k =>
      simp only [at?, List.getElem?_eq_none_iff, List.length_reverse]
      omega

/-- A list is refused what it cannot do, and nothing else. -/
theorem handle_error_iff {x : OpenList α} {request : Request α} :
    (∃ refusal, (x.handle capacity request).1 = .error refusal) ↔ x.Refuses capacity request := by
  cases request with
  | push a | start a =>
      simp only [handle, Refuses]
      split
      · next hOpen => simp [hOpen]
      · next hClosed => split <;> simp_all
  | changeOpen f | close =>
      cases hPending : x.pending <;> simp [handle, Refuses, hPending]
  | look offset | changeLast f => simp [handle, Refuses]
  | changeAt offset f =>
      rw [Refuses, ← at?_eq_none_iff]
      cases hAt : x.at? offset <;> simp [handle, hAt]
  | index i =>
      rw [Refuses, ← List.getElem?_eq_none_iff]
      cases hAt : x.completed[i]? <;> simp [handle, hAt]

theorem fits_nil : ({} : OpenList α).Fits capacity where
  length_le := Nat.zero_le _
  length_lt := nofun

theorem changeAt_fits {x : OpenList α} (hFits : x.Fits capacity) (offset : Int) (f : α → α) :
    (x.changeAt offset f).Fits capacity := by
  match offset with
  | .ofNat 0 => exact ⟨hFits.length_le, by simpa [changeAt] using hFits.length_lt⟩
  | .ofNat (k + 1) => exact hFits
  | .negSucc k =>
      exact ⟨by simpa [changeAt] using hFits.length_le, by simpa [changeAt] using hFits.length_lt⟩

/-- A request leaves a list that fits. -/
theorem handle_fits {x : OpenList α} (hFits : x.Fits capacity) (request : Request α) :
    (x.handle capacity request).2.Fits capacity := by
  have hRoom : x.completed.length ≠ capacity → x.completed.length < capacity :=
    Nat.lt_of_le_of_ne hFits.length_le
  cases request with
  | push a =>
      simp only [handle]
      split
      · exact hFits
      · next hClosed =>
        split
        · exact hFits
        · next hFull =>
          exact ⟨by simpa using Nat.succ_le_of_lt (hRoom hFull), fun hOpen => absurd hOpen hClosed⟩
  | start a =>
      simp only [handle]
      split
      · exact hFits
      · split
        · exact hFits
        · next hFull => exact ⟨hFits.length_le, fun _ => hRoom hFull⟩
  | changeOpen f =>
      cases hPending : x.pending with
      | none => simpa [handle, hPending] using hFits
      | some a =>
          simp only [handle, hPending]
          exact ⟨hFits.length_le, fun _ => hFits.length_lt (by simp [hPending])⟩
  | close =>
      cases hPending : x.pending with
      | none => simpa [handle, hPending] using hFits
      | some a =>
          simp only [handle, hPending]
          have hLess : x.completed.length < capacity := hFits.length_lt (by simp [hPending])
          exact ⟨by simpa using Nat.succ_le_of_lt hLess, nofun⟩
  | look offset => exact hFits
  | changeAt offset f =>
      simp only [handle]
      split
      · exact changeAt_fits hFits offset f
      · exact hFits
  | changeLast f => exact changeAt_fits hFits (-1) f
  | index i =>
      simp only [handle]
      split
      · exact hFits
      · exact hFits

end OpenList

namespace Cursor.Storage

open Steps

variable {α : Type} {capacity : Nat}

/-- The first cells are the completed elements, and the cell behind them is the open one. -/
structure Holds (s : Storage α capacity) (x : OpenList α) : Prop where
  cells : s.toList = x.completed
  count : s.count = x.completed.length
  isOpen : s.isOpen = x.pending.isSome
  behind : ∀ a, x.pending = some a → s.cells[s.count]? = some a

/-- Handling the request does what it does to the list, and changes nothing if the request is
refused. -/
structure Refines (s : Storage α capacity) (x : OpenList α) (request : Request α) : Prop where
  answer : (s.handle request).1 = (x.handle capacity request).1
  holds : (s.handle request).2.Holds (x.handle capacity request).2
  unchanged : ∀ refusal, (s.handle request).1 = .error refusal → (s.handle request).2 = s

section

variable {s t : Storage α capacity} {x y : OpenList α} {request : Request α}

theorem Refines.refused (refusal : Refusal) (hHolds : s.Holds x)
    (h : s.handle request = (.error refusal, s))
    (hList : x.handle capacity request = (.error refusal, x)) : s.Refines x request where
  answer := by rw [h, hList]
  holds := by rw [h, hList]; exact hHolds
  unchanged _ _ := by rw [h]

theorem Refines.answered (reply : Reply α) (hHolds : t.Holds y)
    (h : s.handle request = (.ok reply, t))
    (hList : x.handle capacity request = (.ok reply, y)) : s.Refines x request where
  answer := by rw [h, hList]
  holds := by rw [h, hList]; exact hHolds
  unchanged := by rw [h]; exact nofun

theorem holds_empty [Inhabited α] : (empty : Storage α capacity).Holds {} where
  cells := by simp [empty, toList]
  count := rfl
  isOpen := rfl
  behind := nofun

/-! ## Cells -/

theorem Holds.fits (h : s.Holds x) : x.Fits capacity where
  length_le := by
    rw [← h.cells, toList, List.length_take, Vector.length_toList]
    exact Nat.min_le_right _ _
  length_lt hOpen := by
    obtain ⟨a, ha⟩ := Option.isSome_iff_exists.mp hOpen
    rw [← h.count]
    exact (Vector.getElem?_eq_some_iff.mp (h.behind a ha)).1

theorem Holds.pending (h : s.Holds x) : s.pending = x.pending := by
  rw [Storage.pending, h.isOpen]
  cases hPending : x.pending with
  | none => rfl
  | some a => exact h.behind a hPending

/-- A storage holds one list. -/
theorem Holds.unique (h : s.Holds x) (hOther : s.Holds y) : x = y := by
  have hCompleted : x.completed = y.completed := h.cells.symm.trans hOther.cells
  have hPending : x.pending = y.pending := h.pending.symm.trans hOther.pending
  cases x
  cases y
  congr

/-- There is a cell behind a list that is not full. -/
theorem Holds.count_lt (h : s.Holds x) (hRoom : x.completed.length ≠ capacity) :
    s.count < capacity := by
  rw [h.count]
  exact Nat.lt_of_le_of_ne h.fits.length_le hRoom

/-- Writing behind the list leaves the list as it is. -/
theorem take_set_behind {cells : Cells α capacity} {count : Nat} (h : count < capacity) (a : α) :
    (cells.set count a).toList.take count = cells.toList.take count := by
  rw [Vector.toList_set, List.take_set, List.set_eq_of_length_le]
  exact List.length_take_le _ _

/-- The cell behind the list becomes its last one. -/
theorem take_succ {cells : Cells α capacity} {count : Nat} (h : count < capacity) :
    cells.toList.take (count + 1) = cells.toList.take count ++ [cells[count]] := by
  rw [List.take_succ_eq_append_getElem (by simpa using h), Vector.getElem_toList]

theorem carryOut_changeCell {i : Nat} (hi : i < capacity) (f : α → α) :
    carryOut (changeCell i f) s = (.ok (), { s with cells := s.cells.set i (f s.cells[i]) }) := by
  simp [changeCell, Cells.change_eq_ok hi, Except.map]

/-- Changing the cell behind the list changes the open element. -/
theorem Holds.change_behind (h : s.Holds x) (hCell : s.count < capacity) {a : α}
    (hOpen : x.pending = some a) (b : α) :
    Holds { s with cells := s.cells.set s.count b } { x with pending := some b } where
  cells := (take_set_behind hCell b).trans h.cells
  count := h.count
  isOpen := by
    rw [h.isOpen, hOpen]
    rfl
  behind := by simp

/-- A place counted from the end is a place counted from the front. -/
theorem reverse_modify_reverse {xs : List α} {k : Nat} (hk : k < xs.length) (f : α → α) :
    (xs.reverse.modify k f).reverse =
      xs.set (xs.length - 1 - k) (f xs[xs.length - 1 - k]) := by
  refine List.ext_getElem (by simp) fun i hLeft hRight => ?_
  have hi : i < xs.length := by simpa using hRight
  have hPlace : k = xs.length - 1 - i ↔ xs.length - 1 - k = i := by omega
  simp only [List.getElem_reverse, List.length_modify, List.length_reverse, List.getElem_modify,
    List.getElem_set, hPlace]
  split
  · next hSame =>
    subst hSame
    simp only [show xs.length - 1 - (xs.length - 1 - (xs.length - 1 - k)) =
      xs.length - 1 - k by omega]
  · simp only [show xs.length - 1 - (xs.length - 1 - i) = i by omega]

/-- A cell of the list holds the element at its place. -/
theorem Holds.getElem_cells (h : s.Holds x) {i : Nat} (hi : i < x.completed.length) :
    ∃ hCell : i < capacity, s.cells[i] = x.completed[i] := by
  have hCell : i < capacity := Nat.lt_of_lt_of_le hi h.fits.length_le
  refine ⟨hCell, ?_⟩
  have hAt : x.completed[i]? = s.cells.toList[i]? := by
    rw [← h.cells, toList, List.getElem?_take_of_lt (h.count ▸ hi)]
  rw [List.getElem?_eq_getElem hi, Vector.getElem?_toList, Vector.getElem?_eq_getElem hCell] at hAt
  exact (Option.some.inj hAt).symm

/-- Changing a cell of the list changes the element at its place. -/
theorem Holds.change_listed (h : s.Holds x) {i : Nat} (hi : i < x.completed.length)
    (hCell : i < capacity) (b : α) :
    Holds { s with cells := s.cells.set i b } { x with completed := x.completed.set i b } where
  cells := by
    rw [toList, Vector.toList_set, List.take_set]
    exact congrArg (List.set · i b) h.cells
  count := by simpa using h.count
  isOpen := h.isOpen
  behind a ha := by
    have hNe : i ≠ s.count := Nat.ne_of_lt (h.count ▸ hi)
    rw [Vector.getElem?_set_ne hCell hNe]
    exact h.behind a ha

/-- The storage finds the cell of the element at a distance from the end, if there is one, and
what is changed there is that element. -/
theorem Holds.place? (h : s.Holds x) (offset : Int) :
    (x.at? offset = none ∧ s.place? offset = none) ∨
      ∃ (i : Nat) (hi : i < capacity), s.place? offset = some i ∧
        x.at? offset = some s.cells[i] ∧
        ∀ f : α → α,
          Holds { s with cells := s.cells.set i (f s.cells[i]) } (x.changeAt offset f) := by
  -- The place `count + offset` is the cell behind the list, a cell past it, or a cell of the list.
  match offset with
  | .ofNat 0 =>
      cases hPending : x.pending with
      | none =>
          have hClosed : s.isOpen = false := by rw [h.isOpen, hPending]; rfl
          exact .inl ⟨hPending, by simp [Storage.place?, hClosed]⟩
      | some a =>
          have hOpen : s.isOpen = true := by rw [h.isOpen, hPending]; rfl
          obtain ⟨hCell, ha⟩ := Vector.getElem?_eq_some_iff.mp (h.behind a hPending)
          refine .inr ⟨s.count, hCell, by simp [Storage.place?, hOpen], ?_, fun f => ?_⟩
          · rw [ha]
            exact hPending
          · have hChange : x.changeAt (.ofNat 0) f = { x with pending := some (f a) } := by
              simp [OpenList.changeAt, hPending]
            rw [hChange, ha]
            exact h.change_behind hCell hPending (f a)
  | .ofNat (k + 1) =>
      refine .inl ⟨rfl, if_neg ?_⟩
      have := s.isOpen.toNat_le
      simp only [Int.ofNat_eq_natCast]
      omega
  | .negSucc k =>
      by_cases hk : k < x.completed.length
      · have hi : x.completed.length - 1 - k < x.completed.length := by omega
        obtain ⟨hCell, hAt⟩ := h.getElem_cells hi
        refine .inr ⟨x.completed.length - 1 - k, hCell, ?_, ?_, fun f => ?_⟩
        · have hCount := h.count
          have hPlace : (s.count + Int.negSucc k).toNat = x.completed.length - 1 - k := by omega
          simp only [Storage.place?, hPlace]
          exact if_pos ⟨by omega, by omega⟩
        · rw [hAt, OpenList.at?, List.getElem?_reverse hk, List.getElem?_eq_getElem hi]
        · rw [OpenList.changeAt, reverse_modify_reverse hk, ← hAt]
          exact h.change_listed hi hCell _
      · refine .inl ⟨?_, if_neg ?_⟩
        · simpa [OpenList.at?] using hk
        · have hCount := h.count
          omega

/-! ## Requests -/

theorem Holds.isOpen_of_some (h : s.Holds x) {a : α} (hPending : x.pending = some a) :
    s.isOpen = true := by
  rw [h.isOpen, hPending]
  rfl

theorem Holds.isOpen_of_none (h : s.Holds x) (hPending : x.pending = none) :
    s.isOpen = false := by
  rw [h.isOpen, hPending]
  rfl

/-- An operand is put behind a list that is closed and has room. -/
theorem Holds.occupy (h : s.Holds x) (busy : Fault) (a : α) :
    (x.pending.isSome = true ∧ carryOut (occupy busy a) s = (.error (.fault busy), s)) ∨
      (x.pending = none ∧ x.completed.length = capacity ∧
        carryOut (occupy busy a) s = (.error (.fault (.operandsFull capacity)), s)) ∨
      (x.pending = none ∧ x.completed.length ≠ capacity ∧ ∃ hCell : s.count < capacity,
        carryOut (occupy busy a) s = (.ok (), { s with cells := s.cells.set s.count a })) := by
  cases hPending : x.pending with
  | some b => exact .inl ⟨rfl, by simp [Storage.occupy, h.isOpen_of_some hPending]⟩
  | none =>
      have hClosed := h.isOpen_of_none hPending
      by_cases hFull : x.completed.length = capacity
      · exact .inr (.inl ⟨rfl, hFull, by simp [Storage.occupy, hClosed, h.count, hFull]⟩)
      · have hCell := h.count_lt hFull
        refine .inr (.inr ⟨rfl, hFull, hCell, ?_⟩)
        simp [Storage.occupy, hClosed, carryOut_changeCell hCell, Nat.not_le.mpr hCell]

theorem push_refines (h : s.Holds x) (a : α) : s.Refines x (.push a) := by
  rcases h.occupy .addedWhileOpen a with
    ⟨hOpen, hSteps⟩ | ⟨hClosed, hFull, hSteps⟩ | ⟨hClosed, hRoom, hCell, hSteps⟩
  · refine .refused (.fault .addedWhileOpen) h ?_ ?_
    · simp [handle, respond, push, hSteps]
    · simp [OpenList.handle, hOpen]
  · refine .refused (.fault (.operandsFull capacity)) h ?_ ?_
    · simp [handle, respond, push, hSteps]
    · simp [OpenList.handle, hClosed, hFull]
  · refine .answered (.position s.count)
      (t := { s with cells := s.cells.set s.count a, count := s.count + 1 })
      (y := { x with completed := x.completed ++ [a] }) ⟨?_, ?_, h.isOpen, ?_⟩ ?_ ?_
    · rw [toList, take_succ hCell, take_set_behind hCell, Vector.getElem_set_self]
      exact congrArg (· ++ [a]) h.cells
    · simp [h.count]
    · exact fun b hb => absurd (hClosed.symm.trans hb) (Option.some_ne_none b).symm
    · simp [handle, respond, push, hSteps]
    · simp [OpenList.handle, hClosed, hRoom, h.count]

theorem start_refines (h : s.Holds x) (a : α) : s.Refines x (.start a) := by
  rcases h.occupy .openedTwice a with
    ⟨hOpen, hSteps⟩ | ⟨hClosed, hFull, hSteps⟩ | ⟨hClosed, hRoom, hCell, hSteps⟩
  · refine .refused (.fault .openedTwice) h ?_ ?_
    · simp [handle, respond, start, hSteps]
    · simp [OpenList.handle, hOpen]
  · refine .refused (.fault (.operandsFull capacity)) h ?_ ?_
    · simp [handle, respond, start, hSteps]
    · simp [OpenList.handle, hClosed, hFull]
  · refine .answered .done
      (t := { s with cells := s.cells.set s.count a, isOpen := true })
      (y := { x with pending := some a }) ⟨?_, h.count, rfl, by simp⟩ ?_ ?_
    · exact (take_set_behind hCell a).trans h.cells
    · simp [handle, respond, start, hSteps]
    · simp [OpenList.handle, hClosed, hRoom]

theorem changeOpen_refines (h : s.Holds x) (f : α → α) : s.Refines x (.changeOpen f) := by
  cases hPending : x.pending with
  | none =>
      refine .refused (.fault .notOpen) h ?_ ?_
      · simp [handle, respond, changeOpen, h.isOpen_of_none hPending]
      · simp [OpenList.handle, hPending]
  | some a =>
      obtain ⟨hCell, ha⟩ := Vector.getElem?_eq_some_iff.mp (h.behind a hPending)
      refine .answered .done (h.change_behind hCell hPending (f a)) ?_ ?_
      · simp [handle, respond, changeOpen, h.isOpen_of_some hPending,
          carryOut_changeCell hCell, ha]
      · simp [OpenList.handle, hPending]

theorem close_refines (h : s.Holds x) : s.Refines x .close := by
  cases hPending : x.pending with
  | none =>
      refine .refused (.fault .notOpen) h ?_ ?_
      · simp [handle, respond, close, h.isOpen_of_none hPending]
      · simp [OpenList.handle, hPending]
  | some a =>
      obtain ⟨hCell, ha⟩ := Vector.getElem?_eq_some_iff.mp (h.behind a hPending)
      refine .answered .done (t := { s with count := s.count + 1, isOpen := false })
        (y := { completed := x.completed ++ [a] })
        ⟨?_, ?_, rfl, fun b hb => absurd hb (Option.some_ne_none b).symm⟩ ?_ ?_
      · rw [toList, take_succ hCell, ha]
        exact congrArg (· ++ [a]) h.cells
      · simp [h.count]
      · simp [handle, respond, close, h.isOpen_of_some hPending]
      · simp [OpenList.handle, hPending]

theorem look_refines (h : s.Holds x) (offset : Int) : s.Refines x (.look offset) := by
  refine .answered (.seen (x.at? offset)) h ?_ rfl
  rcases h.place? offset with ⟨hNone, hPlace⟩ | ⟨i, hi, hPlace, hSome, _⟩
  · simp [handle, respond, look, hPlace, hNone]
  · simp [handle, respond, look, readCell, hPlace, hSome, hi]

theorem changeAt_refines (h : s.Holds x) (offset : Int) (f : α → α) :
    s.Refines x (.changeAt offset f) := by
  rcases h.place? offset with ⟨hNone, hPlace⟩ | ⟨i, hi, hPlace, hSome, hChange⟩
  · refine .refused (.fault (.operandMissing offset x.completed.length x.pending.isSome)) h ?_ ?_
    · simp [handle, respond, changeAt, hPlace, h.count, h.isOpen]
    · simp [OpenList.handle, hNone]
  · refine .answered .done (hChange f) ?_ ?_
    · simp [handle, respond, changeAt, hPlace, carryOut_changeCell hi]
    · simp [OpenList.handle, hSome]

theorem lastIndex?_eq_place? : s.lastIndex? = s.place? (-1) := by
  by_cases hEmpty : s.count = 0
  · rw [lastIndex?, if_pos hEmpty, Storage.place?, if_neg (by omega)]
  · have hPlace : ((s.count : Int) + -1).toNat = s.count - 1 := by omega
    rw [lastIndex?, if_neg hEmpty, Storage.place?]
    simp only [hPlace]
    rw [if_pos ⟨by omega, by omega⟩]

theorem changeLast_refines (h : s.Holds x) (f : α → α) : s.Refines x (.changeLast f) := by
  have hLast : x.at? (-1) = x.completed.getLast? := by
    show x.completed.reverse[0]? = _
    rw [← List.head?_eq_getElem?, List.head?_reverse]
  rcases h.place? (-1) with ⟨hNone, hPlace⟩ | ⟨i, hi, hPlace, hSome, hChange⟩
  · have hEmpty : x.completed = [] := by simpa [hLast] using hNone
    have hSame : x.changeAt (-1) f = x := by
      obtain ⟨completed, pending⟩ := x
      cases hEmpty
      rfl
    refine .answered (.found false) h ?_ ?_
    · simp [handle, respond, changeLast, lastIndex?_eq_place?, hPlace]
    · simp [OpenList.handle, hEmpty, hSame]
  · have hMore : x.completed ≠ [] := fun hEmpty => by simp [hLast, hEmpty] at hSome
    refine .answered (.found true) (hChange f) ?_ ?_
    · simp [handle, respond, changeLast, lastIndex?_eq_place?, hPlace,
        carryOut_changeCell hi]
    · simp [OpenList.handle, hMore]

theorem index_refines (h : s.Holds x) (i : Nat) : s.Refines x (.index i) := by
  cases hAt : x.completed[i]? with
  | none =>
      refine .refused (.pastEnd i x.completed.length) h ?_ ?_
      · simp [handle, respond, index, h.cells, h.count, hAt]
      · simp [OpenList.handle, hAt]
  | some a =>
      refine .answered (.operand a) h ?_ ?_
      · simp [handle, respond, index, h.cells, hAt]
      · simp [OpenList.handle, hAt]

/-- A storage that holds a list handles every request as the list does. -/
theorem handle_refines (h : s.Holds x) (request : Request α) : s.Refines x request := by
  cases request with
  | push a => exact push_refines h a
  | start a => exact start_refines h a
  | changeOpen f => exact changeOpen_refines h f
  | close => exact close_refines h
  | look offset => exact look_refines h offset
  | changeAt offset f => exact changeAt_refines h offset f
  | changeLast f => exact changeLast_refines h f
  | index i => exact index_refines h i

end

end Cursor.Storage

/-! ## The cursor of a report -/

namespace Cursor

variable {α : Type} {capacity : Nat}

/-- The list that a cursor stands for. -/
def view (c : Cursor α capacity) : OpenList α := ⟨c.toList, c.pending⟩

theorem at?_view (c : Cursor α capacity) (offset : Int) : c.view.at? offset = c.get? offset := by
  match offset with
  | .ofNat 0 => rfl
  | .ofNat (k + 1) => rfl
  | .negSucc k => simp [OpenList.at?, get?, view, toList]

theorem view_modifyLast (c : Cursor α capacity) (f : α → α) :
    (c.modifyLast f).view = c.view.changeAt (-1) f := by
  show OpenList.mk (c.recent.modify 0 f).reverse c.pending =
    ⟨(c.recent.reverse.reverse.modify 0 f).reverse, c.pending⟩
  rw [List.reverse_reverse]

theorem handle_changeAt_view (c : Cursor α capacity) (offset : Int) (f : α → α) :
    ((c.handle (.changeAt offset f)).1, (c.handle (.changeAt offset f)).2.view) =
      c.view.handle capacity (.changeAt offset f) := by
  have hLength : c.view.completed.length = c.length := length_toList c
  have hOpen : c.view.pending.isSome = c.isOpen := rfl
  simp only [OpenList.handle, at?_view, hLength, hOpen]
  cases offset with
  | ofNat n =>
      obtain ⟨recent, pending⟩ := c
      cases n with
      | zero => cases pending <;> rfl
      | succ k => rfl
  | negSucc k =>
      by_cases hk : k < c.recent.length
      · simp [handle, modifyAt, get?, settle, OpenList.changeAt, view, toList, hk]
      · simp [handle, modifyAt, get?, settle, hk]

/-- A cursor that fits handles every request as its list does. -/
theorem handle_view {c : Cursor α capacity} (hFits : c.view.Fits capacity) (request : Request α) :
    ((c.handle request).1, (c.handle request).2.view) = c.view.handle capacity request := by
  have hLength : c.view.completed.length = c.length := length_toList c
  have hOpen : c.view.pending.isSome = c.isOpen := rfl
  have hFull : c.view.completed.length = capacity ↔ ¬ c.length < capacity := by
    have hBound := hFits.length_le
    omega
  cases request with
  | push a =>
      simp only [handle, OpenList.handle, push, hOpen, hFull]
      split
      · rfl
      · split
        · simp [settle, view, toList, length]
        · simp [settle]
  | start a =>
      simp only [handle, OpenList.handle, start, hOpen, hFull]
      split
      · rfl
      · split
        · simp [settle, view, toList]
        · simp [settle]
  | changeOpen f =>
      cases hPending : c.pending with
      | none => simp [handle, OpenList.handle, modifyOpen, settle, view, hPending]
      | some a =>
          simp [handle, OpenList.handle, modifyOpen, settle, view, toList, hPending, Except.map]
  | close =>
      cases hPending : c.pending with
      | none => simp [handle, OpenList.handle, close, settle, view, hPending]
      | some a => simp [handle, OpenList.handle, close, settle, view, toList, hPending]
  | look offset => simp [handle, OpenList.handle, at?_view]
  | changeAt offset f => exact handle_changeAt_view c offset f
  | changeLast f =>
      have hEmpty : c.view.completed.isEmpty = c.isEmpty := by
        rw [Bool.eq_iff_iff]
        simp [view, toList, isEmpty, length]
      simp [handle, OpenList.handle, hEmpty, view_modifyLast]
  | index i =>
      cases hAt : c.toList[i]? with
      | none => simp [handle, OpenList.handle, view, hAt]
      | some a => simp [handle, OpenList.handle, view, hAt]

/-- After any run of requests on an empty storage, it holds the list that the requests make of
the empty list, within the capacity, and so does the cursor of a report.  Both answer the next
request as the list does.  A request is refused just where the list refuses it, and then nothing
has changed. -/
theorem after_refines_openList [Inhabited α] (capacity : Nat) (history : List (Request α))
    (request : Request α) :
    let s : Storage α capacity := after Storage.handle Storage.empty history
    let c : Cursor α capacity := after handle empty history
    let x : OpenList α := after (OpenList.handle capacity) {} history
    (s.toList = x.completed ∧ s.count = x.completed.length ∧ s.pending = x.pending ∧
        s.isOpen = x.pending.isSome) ∧
      x.Fits capacity ∧
      (s.handle request).1 = (x.handle capacity request).1 ∧
      ((∃ refusal, (s.handle request).1 = .error refusal) ↔ x.Refuses capacity request) ∧
      (x.Refuses capacity request →
        (s.handle request).2 = s ∧ (x.handle capacity request).2 = x) ∧
      c.view = x ∧ (c.handle request).1 = (x.handle capacity request).1 := by
  intro s c x
  have hHolds : s.Holds x :=
    after_related Storage.Holds (fun _ _ i h => (Storage.handle_refines h i).holds)
      Storage.holds_empty history
  have hView : c.view = x ∧ x.Fits capacity := by
    refine after_related (fun (c : Cursor α capacity) x => c.view = x ∧ x.Fits capacity)
      (fun c x i h => ?_) ⟨rfl, OpenList.fits_nil⟩ history
    obtain ⟨rfl, hFits⟩ := h
    exact ⟨congrArg Prod.snd (handle_view hFits i), OpenList.handle_fits hFits i⟩
  have hNext := Storage.handle_refines hHolds request
  have hRefused : (∃ refusal, (s.handle request).1 = .error refusal) ↔
      x.Refuses capacity request := by
    rw [hNext.answer]
    exact OpenList.handle_error_iff
  refine ⟨⟨hHolds.cells, hHolds.count, hHolds.pending, hHolds.isOpen⟩, hHolds.fits, hNext.answer,
    hRefused, fun hRefuses => ?_, hView.1, ?_⟩
  · obtain ⟨refusal, hError⟩ := hRefused.mpr hRefuses
    have hSame := hNext.unchanged refusal hError
    exact ⟨hSame, Storage.Holds.unique (hSame ▸ hNext.holds) hHolds⟩
  · have hFits : c.view.Fits capacity := hView.1 ▸ hView.2
    rw [← hView.1]
    exact congrArg Prod.fst (handle_view hFits request)

end Cursor

end OperandReport
