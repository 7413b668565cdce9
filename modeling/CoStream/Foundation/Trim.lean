import Mathlib.Data.List.Infix

namespace Foundation
variable {α : Type} {c : α} {text : List α}

theorem two_front (c : α) (text : List α) : [c,c] <+: c::text ↔ text.head? = some c := by
  rw [List.cons_prefix_cons]
  cases text with
  | nil => simp
  | cons letter rest => simp [List.cons_prefix_cons,eq_comm]

theorem two_back (c : α) (text : List α) : [c,c] <:+ text++[c] ↔ text.getLast? = some c := by
  rw [← List.reverse_prefix,List.reverse_append,← List.head?_reverse]
  exact two_front c text.reverse

theorem head_of_two (front : [c,c] <+: text) : text.head? = some c := by
  obtain ⟨rest,rfl⟩ := front
  rfl

theorem last_of_two (back : [c,c] <:+ text) : text.getLast? = some c := by
  obtain ⟨rest,rfl⟩ := back
  simp

-- At most one of the letter at either end, or no other letter and no more than
-- three of them.
def Single (c : α) (text : List α) : Prop := (¬ [c,c] <+: text ∧ ¬ [c,c] <:+ text) ∨ text = [c,c] ∨ text = [c,c,c]

-- Nothing is left to trim.
def Trimmed (c : α) (text : List α) : Prop := text = [c] ∨ text.head? ≠ some c ∧ text.getLast? ≠ some c

theorem trimmed_both (inner : List α) : Trimmed c inner ↔ Single c (c::(inner++[c])) := by
  unfold Trimmed Single
  cases inner with
  | nil => simp
  | cons letter rest =>
    have back : [c,c] <:+ c::(letter::rest++[c]) ↔ (letter::rest).getLast? = some c := by
      have snoc := two_back c (c::letter::rest)
      rwa [List.getLast?_cons_cons] at snoc
    rw [two_front,back]
    simp only [List.cons_append,List.head?_cons,List.cons.injEq,true_and]
    constructor
    · rintro (⟨rfl,rfl⟩ | apart)
      · exact .inr (.inr ⟨rfl,rfl⟩)
      · exact .inl apart
    · rintro (apart | ⟨-,impossible⟩ | ⟨rfl,short⟩)
      · exact .inr apart
      · exact absurd impossible (by simp)
      · exact .inl ⟨rfl,by simpa using short⟩

theorem trimmed_front (rest : List α) (filled : rest ≠ []) (last : rest.getLast? ≠ some c) :
    Trimmed c rest ↔ Single c (c::rest) := by
  have whole : (c::rest).getLast? = rest.getLast? := by
    obtain ⟨letter,behind,rfl⟩ := List.exists_cons_of_ne_nil filled
    exact List.getLast?_cons_cons
  have back : ¬ [c,c] <:+ c::rest := fun two => last (whole.symm.trans (last_of_two two))
  unfold Trimmed Single
  rw [two_front]
  constructor
  · rintro (rfl | apart)
    · exact absurd rfl last
    · exact .inl ⟨apart.1,back⟩
  · rintro (apart | same | same)
    · exact .inr ⟨apart.1,last⟩
    · obtain rfl := (List.cons.inj same).2
      exact absurd rfl last
    · obtain rfl := (List.cons.inj same).2
      exact absurd rfl last

theorem trimmed_back (inner : List α) (filled : inner ≠ []) (head : inner.head? ≠ some c) :
    Trimmed c inner ↔ Single c (inner++[c]) := by
  have mirrored := trimmed_front inner.reverse (by simpa using filled) (by simpa using head)
  have one : Trimmed c inner.reverse ↔ Trimmed c inner := by
    unfold Trimmed
    rw [List.head?_reverse,List.getLast?_reverse,and_comm,List.reverse_eq_iff]
    rfl
  have two : Single c (c::inner.reverse) ↔ Single c (inner++[c]) := by
    have turned : c::inner.reverse = (inner++[c]).reverse := by simp
    unfold Single
    rw [turned,and_comm,List.reverse_eq_iff,List.reverse_eq_iff]
    have front : [c,c] <+: (inner++[c]).reverse ↔ [c,c] <:+ inner++[c] := by
      rw [← List.reverse_prefix]
      rfl
    have back : [c,c] <:+ (inner++[c]).reverse ↔ [c,c] <+: inner++[c] := by
      rw [← List.reverse_suffix]
      rfl
    rw [front,back]
    rfl
  rw [← one,← two]
  exact mirrored

variable [DecidableEq α]

instance : Decidable (Single c text) := inferInstanceAs (Decidable (_ ∨ _))

-- One letter less at either end, where it is the given one.
def withoutFront (c : α) (text : List α) : List α := if text.head? = some c then text.tail else text
def withoutBack (c : α) (text : List α) : List α := if text.getLast? = some c then text.dropLast else text

theorem length_withoutBack (c : α) (text : List α) : (withoutBack c text).length ≤ text.length := by
  unfold withoutBack
  split
  · rw [List.length_dropLast]
    exact Nat.sub_le _ _
  · exact Nat.le_refl _

theorem withoutFront_cons (c : α) (text : List α) : withoutFront c (c::text) = text := if_pos rfl
theorem withoutFront_other (other : text.head? ≠ some c) : withoutFront c text = text := if_neg other
theorem withoutBack_snoc (text : List α) : withoutBack c (text++[c]) = text := by
  rw [withoutBack,if_pos List.getLast?_concat,List.dropLast_concat]
theorem withoutBack_other (other : text.getLast? ≠ some c) : withoutBack c text = text := if_neg other

-- Trimming both ends leaves a text alone only if neither has the letter.
theorem trimmed_iff : withoutBack c (withoutFront c text) = text ↔ text.head? ≠ some c ∧ text.getLast? ≠ some c := by
  constructor
  · intro same
    have front : text.head? ≠ some c := by
      intro head
      obtain ⟨rest,rfl⟩ := List.head?_eq_some_iff.mp head
      have shorter := length_withoutBack c (withoutFront c (c::rest))
      rw [same,withoutFront_cons,List.length_cons] at shorter
      omega
    refine ⟨front,fun last => ?_⟩
    obtain ⟨start,rfl⟩ := List.getLast?_eq_some_iff.mp last
    rw [withoutFront_other front,withoutBack_snoc] at same
    exact absurd (congrArg List.length same) (by simp)
  · rintro ⟨front,back⟩
    rw [withoutFront_other front,withoutBack_other back]

-- A second trimming finds nothing more exactly behind such a text. The cases
-- are whether the first one found the letter in front and behind.
theorem trimmed_once (more : text ≠ [c]) : Trimmed c (withoutBack c (withoutFront c text)) ↔ Single c text := by
  by_cases head : text.head? = some c
  · obtain ⟨rest,rfl⟩ := List.head?_eq_some_iff.mp head
    rw [withoutFront_cons]
    by_cases last : rest.getLast? = some c
    · obtain ⟨inner,rfl⟩ := List.getLast?_eq_some_iff.mp last
      rw [withoutBack_snoc]
      exact trimmed_both inner
    · rw [withoutBack_other last]
      exact trimmed_front rest (by simpa using more) last
  · rw [withoutFront_other head]
    by_cases last : text.getLast? = some c
    · obtain ⟨inner,rfl⟩ := List.getLast?_eq_some_iff.mp last
      have filled : inner ≠ [] := by simpa using more
      rw [List.head?_append_of_ne_nil _ filled] at head
      rw [withoutBack_snoc]
      exact trimmed_back inner filled head
    · rw [withoutBack_other last]
      constructor
      · exact fun _ => .inl ⟨fun two => head (head_of_two two),fun two => last (last_of_two two)⟩
      · exact fun _ => .inr ⟨head,last⟩

end Foundation
