import CoStream.Foundation.Machine

namespace Foundation

-- The ways out of the C++ abstract machine that the modelled code can take,
-- and the way a loop is given up on when the model has no more steps for it.
inductive Fault where
  | signedOverflow
  | outOfBounds
  | assertion
  | endless
deriving DecidableEq,Repr

def FitsInt (x : Int) : Prop := -2^31 ≤ x ∧ x < 2^31
def FitsInt64 (x : Int) : Prop := -2^63 ≤ x ∧ x < 2^63
instance : Decidable (FitsInt x) := inferInstanceAs (Decidable (_ ∧ _))
instance : Decidable (FitsInt64 x) := inferInstanceAs (Decidable (_ ∧ _))

-- The result of a signed `int` or `int64_t` operation.
def int (x : Int) : Except Fault Int := if FitsInt x then .ok x else .error .signedOverflow
def int64 (x : Int) : Except Fault Int := if FitsInt64 x then .ok x else .error .signedOverflow

-- Conversions never fault: they keep the low bits.
def toInt (x : Int) : Int := x.bmod (2^32)
def toInt64 (x : Int) : Int := x.bmod (2^64)
def toSize (x : Int) : Nat := (x % 2^64).toNat

theorem int_ok (fits : FitsInt x) : int x = .ok x := if_pos fits
theorem int_fault (wide : ¬ FitsInt x) : int x = .error .signedOverflow := if_neg wide
theorem int64_ok (fits : FitsInt64 x) : int64 x = .ok x := if_pos fits

theorem int_iff : int x = .ok y ↔ FitsInt x ∧ x = y := by
  unfold int
  split <;> simp_all

theorem int_inside : int x ≠ .error .outOfBounds := by
  unfold int
  split <;> simp

theorem toInt_fits (fits : FitsInt x) : toInt x = x := by
  obtain ⟨low,high⟩ := fits
  exact Int.bmod_eq_of_le (by omega) (by omega)

theorem toInt64_fits (fits : FitsInt64 x) : toInt64 x = x := by
  obtain ⟨low,high⟩ := fits
  exact Int.bmod_eq_of_le (by omega) (by omega)

theorem toSize_fits (low : 0 ≤ x) (high : x < 2^64) : toSize x = x.toNat := by
  rw [toSize,Int.emod_eq_of_lt low high]

theorem toInt_le (n : Nat) : toInt n ≤ n := by
  unfold toInt Int.bmod
  dsimp only
  split <;> omega

theorem toInt_range (x : Int) : FitsInt (toInt x) := by
  unfold toInt Int.bmod FitsInt
  dsimp only
  split <;> omega

-- From 2 GiB on a length loses at least 4 GiB on its way into an `int`.
theorem toInt_wraps (long : 2^31 ≤ x) : toInt x ≤ x-2^32 := by
  unfold toInt Int.bmod
  dsimp only
  split <;> omega

theorem toInt_wrapped (long : 2^31 ≤ x) (short : x < 2^32) : toInt x = x-2^32 := by
  unfold toInt Int.bmod
  dsimp only
  split <;> omega

-- A heap block. `none` is a cell that was allocated and never written.
structure Block (β : Type) where
  capacity : Nat
  cell : Nat → Option β

namespace Block

def allocate (capacity : Nat) : Block β := ⟨capacity,fun _ => none⟩

def view (b : Block β) (start count : Nat) : List (Option β) :=
  (List.range count).map fun i => b.cell (start+i)

def store (b : Block β) (start : Nat) (cells : List (Option β)) : Block β :=
  {b with cell := fun i => if start ≤ i ∧ i < start+cells.length then (cells[i-start]?).join else b.cell i}

def fill (b : Block β) (count : Nat) (value : β) : Block β :=
  {b with cell := fun i => if i < count then some value else b.cell i}

-- Both ends of a copy, with the bounds the allocation gives them.
def load (b : Block β) (start count : Int) : Except Fault (List (Option β)) :=
  if 0 ≤ start ∧ 0 ≤ count ∧ start+count ≤ b.capacity then .ok (b.view start.toNat count.toNat)
  else .error .outOfBounds

def copyIn (b : Block β) (start : Int) (cells : List (Option β)) : Except Fault (Block β) :=
  if 0 ≤ start ∧ start+cells.length ≤ b.capacity then .ok (b.store start.toNat cells)
  else .error .outOfBounds

@[simp] theorem capacity_allocate (n : Nat) : (allocate n : Block β).capacity = n := rfl
@[simp] theorem capacity_store (b : Block β) (start : Nat) (cells : List (Option β)) :
    (b.store start cells).capacity = b.capacity := rfl
@[simp] theorem length_view (b : Block β) (start count : Nat) : (b.view start count).length = count := by
  simp [view]

theorem load_ok (b : Block β) (start count : Nat) (inside : start+count ≤ b.capacity) :
    b.load start count = .ok (b.view start count) := by
  have bounds : 0 ≤ (start : Int) ∧ 0 ≤ (count : Int) ∧ (start : Int)+count ≤ b.capacity := by omega
  simp [load,bounds]

theorem copyIn_ok (b : Block β) (start : Nat) (cells : List (Option β))
    (inside : start+cells.length ≤ b.capacity) : b.copyIn start cells = .ok (b.store start cells) := by
  have bounds : 0 ≤ (start : Int) ∧ (start : Int)+cells.length ≤ b.capacity := by omega
  simp [copyIn,bounds]

theorem load_iff {b : Block β} {start count : Int} : b.load start count = .ok cells ↔
    (0 ≤ start ∧ 0 ≤ count ∧ start+count ≤ b.capacity) ∧ b.view start.toNat count.toNat = cells := by
  unfold load
  split
  · rename_i inside
    simp [inside]
  · rename_i outside
    simp only [reduceCtorEq,false_iff]
    exact fun both => outside both.1

theorem load_outside {b : Block β} {start count : Int} : b.load start count = .error .outOfBounds ↔
    ¬ (0 ≤ start ∧ 0 ≤ count ∧ start+count ≤ b.capacity) := by
  unfold load
  split <;> simp_all

theorem copyIn_iff {b : Block β} {start : Int} : b.copyIn start cells = .ok filled ↔
    (0 ≤ start ∧ start+cells.length ≤ b.capacity) ∧ b.store start.toNat cells = filled := by
  unfold copyIn
  split
  · rename_i inside
    simp [inside]
  · rename_i outside
    simp only [reduceCtorEq,false_iff]
    exact fun both => outside both.1

theorem copyIn_outside {b : Block β} {start : Int} : b.copyIn start cells = .error .outOfBounds ↔
    ¬ (0 ≤ start ∧ start+cells.length ≤ b.capacity) := by
  unfold copyIn
  split <;> simp_all

theorem view_append (b : Block β) (start one two : Nat) :
    b.view start (one+two) = b.view start one ++ b.view (start+one) two := by
  simp [view,List.range_add,Nat.add_assoc]

theorem view_drop (b : Block β) (start count skipped : Nat) (within : skipped ≤ count) :
    b.view (start+skipped) (count-skipped) = (b.view start count).drop skipped := by
  have split := view_append b start skipped (count-skipped)
  rw [Nat.add_sub_cancel' within] at split
  rw [split,List.drop_left' (by simp)]

theorem view_store (b : Block β) (start : Nat) (cells : List (Option β)) :
    (b.store start cells).view start cells.length = cells := by
  apply List.ext_getElem (by simp)
  intro i short long
  have inside : start ≤ start+i ∧ start+i < start+cells.length := ⟨by omega,by omega⟩
  simp only [view,store,List.getElem_map,List.getElem_range,if_pos inside,Nat.add_sub_cancel_left,
    List.getElem?_eq_getElem long,Option.join_some]

theorem view_store_before (b : Block β) (start other count : Nat) (cells : List (Option β))
    (apart : other+count ≤ start) : (b.store start cells).view other count = b.view other count := by
  apply List.map_congr_left
  intro i member
  have below : i < count := List.mem_range.mp member
  exact if_neg (by omega)

theorem view_store_behind (b : Block β) (start count : Nat) (cells : List (Option β)) :
    (b.store (start+count) cells).view start (count+cells.length) = b.view start count ++ cells := by
  rw [view_append,view_store,view_store_before _ _ _ _ _ (Nat.le_refl _)]

-- Two blocks with the same cells up to a position show the same there, and
-- still do behind the same store.
def Agree (limit : Nat) (one two : Block β) : Prop := ∀ i, i < limit → one.cell i = two.cell i

theorem Agree.less (agree : Agree limit one two) (less : other ≤ limit) : Agree other one two :=
  fun i below => agree i (Nat.lt_of_lt_of_le below less)

theorem Agree.view (agree : Agree limit one two) (within : start+count ≤ limit) :
    one.view start count = two.view start count := by
  apply List.map_congr_left
  intro i member
  have below : i < count := List.mem_range.mp member
  exact agree _ (by omega)

theorem agree_of_view {one two : Block β} (same : one.view 0 count = two.view 0 count) : Agree count one two := by
  intro i below
  have at_i := congrArg (fun cells => cells[i]?) same
  simpa [Block.view,below] using at_i

theorem Agree.store {one two : Block β} (agree : Agree limit one two) (start : Nat) (cells : List (Option β)) :
    Agree limit (one.store start cells) (two.store start cells) := by
  intro i below
  simp only [Block.store,agree i below]

theorem Agree.extend {one two : Block β} (agree : Agree start one two) (cells : List (Option β)) :
    Agree (start+cells.length) (one.store start cells) (two.store start cells) := by
  intro i below
  by_cases front : i < start
  · exact agree.store start cells i front
  · have inside : start ≤ i ∧ i < start+cells.length := ⟨by omega,below⟩
    simp only [Block.store,inside,and_self,if_true]

end Block
end Foundation
