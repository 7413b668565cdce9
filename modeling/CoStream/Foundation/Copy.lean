import Mathlib.Data.Vector.Basic
import CoStream.Foundation.Undefined

namespace Foundation
variable {β : Type}

-- Plain arrays, as memcpy sees them: a range that is read, a range that is
-- written. A member array carries its size in its type.
def slice (data : List β) (start count : Nat) : Except Fault (List β) :=
  if start+count ≤ data.length then .ok ((data.drop start).take count) else .error .outOfBounds

def sliceFixed (data : List β) (start count : Nat) : Except Fault (List.Vector β count) :=
  if inside : start+count ≤ data.length then
    .ok ⟨(data.drop start).take count,by rw [List.length_take,List.length_drop]; omega⟩
  else .error .outOfBounds

def overlay {size : Nat} (body : List.Vector β size) (start : Nat) (written : List β) :
    Except Fault (List.Vector β size) :=
  if inside : start+written.length ≤ size then
    .ok ⟨body.toList.take start++(written++body.toList.drop (start+written.length)),by simp; omega⟩
  else .error .outOfBounds

def assert (condition : Prop) [Decidable condition] : Except Fault Unit :=
  if condition then .ok () else .error .assertion

theorem assert_ok (condition : Prop) [Decidable condition] (holds : condition) : assert condition = .ok () := if_pos holds

-- A range that is a part of a known concatenation is that part.
theorem slice_part {data : List β} (front part back : List β) (shape : data = front++(part++back))
    (begins : start = front.length) (ends : count = part.length) : slice data start count = .ok part := by
  subst shape begins ends
  unfold slice
  rw [if_pos (by simp),List.drop_left,List.take_left]

theorem sliceFixed_part {data : List β} (front : List β) (part : List.Vector β count) (back : List β)
    (shape : data = front++(part.toList++back)) (begins : start = front.length) :
    sliceFixed data start count = .ok part := by
  subst shape begins
  unfold sliceFixed
  rw [dif_pos (by simp)]
  congr 1
  apply List.Vector.toList_injective
  simp

theorem overlay_front {size : Nat} {body next : List.Vector β size} (laid : overlay body 0 written = .ok next) :
    next.toList = written++body.toList.drop written.length := by
  unfold overlay at laid
  split at laid
  · cases laid
    simp
  · cases laid

theorem overlay_part {size : Nat} (body : List.Vector β size) (front old back written : List β) (start : Nat)
    (shape : body.toList = front++(old++back)) (begins : start = front.length) (same : old.length = written.length) :
    ∃ next, overlay body start written = .ok next ∧ next.toList = front++(written++back) := by
  have total := body.toList_length
  rw [shape,List.length_append,List.length_append] at total
  refine ⟨_,dif_pos (by omega),?_⟩
  subst begins
  simp only [List.Vector.toList_mk,shape,List.take_left,← same]
  rw [← List.append_assoc front old back,List.drop_left' (by simp)]

theorem overlay_two {size : Nat} (body : List.Vector β size) (front one two back first second : List β) (start : Nat)
    (shape : body.toList = front++(one++(two++back))) (begins : start = front.length) (sameOne : one.length = first.length)
    (sameTwo : two.length = second.length) : ∃ middle next, overlay body start first = .ok middle ∧
      overlay middle (start+first.length) second = .ok next ∧ next.toList = front++(first++(second++back)) := by
  obtain ⟨middle,laid,isMiddle⟩ := overlay_part body front one (two++back) first start shape begins sameOne
  obtain ⟨next,laidNext,isNext⟩ := overlay_part middle (front++first) two back second (start+first.length)
    (by simp [isMiddle]) (by simp [begins]) sameTwo
  exact ⟨middle,next,laid,laidNext,by simp [isNext]⟩

-- A part of a list exchanged for another of its length.
def replaced (data : List β) (start : Nat) (written : List β) : List β :=
  data.take start++(written++data.drop (start+written.length))

theorem replaced_part {data : List β} (front old back written : List β) (shape : data = front++(old++back))
    (begins : start = front.length) (same : old.length = written.length) :
    replaced data start written = front++(written++back) := by
  subst shape begins
  unfold replaced
  rw [List.take_left,← same,← List.append_assoc front old back,List.drop_left' (by simp)]

end Foundation
