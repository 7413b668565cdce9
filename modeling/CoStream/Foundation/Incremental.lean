import Mathlib.Data.List.Basic

namespace Foundation

-- A decoder takes the first item off its input, or waits for more of it. It
-- never hands out an item for nothing and never changes its mind about one.
structure Decoder (α β : Type) where
  next : List α → Option (β × List α)
  consumes : ∀ {input item rest}, next input = some (item,rest) → rest.length < input.length
  stable : ∀ {input item rest}, next input = some (item,rest) → ∀ more, next (input++more) = some (item,rest++more)

namespace Decoder
variable {α β γ : Type} (d : Decoder α β)

def drainWith : Nat → List α → List β × List α
  | 0,input => ([],input)
  | fuel+1,input =>
    match d.next input with
    | none => ([],input)
    | some (item,rest) => (item::(drainWith fuel rest).1,(drainWith fuel rest).2)

def drain (input : List α) : List β × List α := d.drainWith input.length input

-- The places of the input at which the decoder looks for an item.
inductive Reaches : List α → List α → Prop where
  | here : Reaches input input
  | step : d.next input = some (item,rest) → Reaches rest place → Reaches input place

theorem next_nil : d.next [] = none := by
  cases found : d.next [] with
  | none => rfl
  | some pair => exact absurd (d.consumes found) (Nat.not_lt_zero _)

theorem drainWith_enough (one two : Nat) (input : List α) (first : input.length ≤ one) (second : input.length ≤ two) :
    d.drainWith one input = d.drainWith two input := by
  induction one generalizing two input with
  | zero =>
    have empty : input = [] := List.length_eq_zero_iff.mp (by omega)
    cases two with
    | zero => rfl
    | succ two => simp [drainWith,empty,d.next_nil]
  | succ one ih =>
    cases two with
    | zero =>
      have empty : input = [] := List.length_eq_zero_iff.mp (by omega)
      simp [drainWith,empty,d.next_nil]
    | succ two =>
      simp only [drainWith]
      split
      · rfl
      · rename_i item rest found
        have shorter := d.consumes found
        rw [ih two rest (by omega) (by omega)]

theorem drain_none (waits : d.next input = none) : d.drain input = ([],input) := by
  unfold drain
  cases input.length with
  | zero => rfl
  | succ fuel => simp [drainWith,waits]

theorem drain_some (found : d.next input = some (item,rest)) :
    d.drain input = (item::(d.drain rest).1,(d.drain rest).2) := by
  have shorter := d.consumes found
  unfold drain
  cases long : input.length with
  | zero => omega
  | succ fuel =>
    simp only [drainWith,found]
    rw [d.drainWith_enough fuel rest.length rest (by omega) (Nat.le_refl _)]

@[simp] theorem drain_nil : d.drain [] = ([],[]) := d.drain_none d.next_nil

-- Induction along the items of an input.
theorem drain_induction (Holds : List α → Prop) (waits : ∀ input, d.next input = none → Holds input)
    (takes : ∀ input item rest, d.next input = some (item,rest) → Holds rest → Holds input) (input : List α) :
    Holds input := by
  induction long : input.length using Nat.strongRecOn generalizing input with
  | ind count ih =>
    cases found : d.next input with
    | none => exact waits input found
    | some pair =>
      have shorter := d.consumes found
      exact takes input pair.1 pair.2 found (ih pair.2.length (by omega) pair.2 rfl)

-- Draining in two goes gives the same items and leaves the same rest.
theorem drain_append (input more : List α) : d.drain (input++more) =
    ((d.drain input).1++(d.drain ((d.drain input).2++more)).1,(d.drain ((d.drain input).2++more)).2) := by
  induction input using d.drain_induction with
  | waits input waits => simp [d.drain_none waits]
  | takes input item rest found ih => simp [d.drain_some found,d.drain_some (d.stable found more),ih]

theorem drain_flatMap (encode : γ → List α) (value : γ → β) (xs : List γ)
    (decodes : ∀ x ∈ xs, ∀ more, d.next (encode x++more) = some (value x,more)) :
    d.drain (xs.flatMap encode) = (xs.map value,[]) := by
  induction xs with
  | nil => simp
  | cons x xs ih =>
    rw [List.flatMap_cons,d.drain_some (decodes x (by simp) _),ih fun y member => decodes y (by simp [member])]
    rfl

theorem next_front (whole : d.next (front++more) = some (item,[])) (missing : more ≠ []) : d.next front = none := by
  cases found : d.next front with
  | none => rfl
  | some pair =>
    have longer := (d.stable found more).symm.trans whole
    simp only [Option.some.injEq,Prod.mk.injEq,List.append_eq_nil_iff] at longer
    exact absurd longer.2.2 missing

variable {d}

theorem Reaches.trans (first : d.Reaches input middle) (second : d.Reaches middle place) : d.Reaches input place := by
  induction first with
  | here => exact second
  | step found _ ih => exact .step found (ih second)

theorem Reaches.append (reached : d.Reaches input place) (more : List α) : d.Reaches (input++more) (place++more) := by
  induction reached with
  | here => exact .here
  | step found _ ih => exact .step (d.stable found more) ih

theorem Reaches.length_le (reached : d.Reaches input place) : place.length ≤ input.length := by
  induction reached with
  | here => exact Nat.le_refl _
  | step found _ ih =>
    have shorter := d.consumes found
    omega

theorem Reaches.waits (reached : d.Reaches input place) (waits : d.next place = none) : place = (d.drain input).2 := by
  induction reached with
  | here => rw [d.drain_none waits]
  | step found _ ih => rw [d.drain_some found,ih waits]

-- A place of a longer input is a place of its front where an item was found, or
-- lies behind what the front leaves over.
theorem Reaches.split (input more : List α) (reached : d.Reaches (input++more) place) :
    (∃ front item rest, d.Reaches input front ∧ d.next front = some (item,rest) ∧ place = front++more) ∨
      d.Reaches ((d.drain input).2++more) place := by
  induction input using d.drain_induction with
  | waits input waits =>
    rw [d.drain_none waits]
    exact .inr reached
  | takes input item rest found ih =>
    rw [d.drain_some found]
    cases reached with
    | here => exact .inl ⟨input,item,rest,.here,found,rfl⟩
    | step next reached =>
      rw [d.stable found more] at next
      cases next
      rcases ih reached with ⟨front,later,left,walked,taken,same⟩ | behind
      · exact .inl ⟨front,later,left,.step found walked,taken,same⟩
      · exact .inr behind

end Decoder
end Foundation
