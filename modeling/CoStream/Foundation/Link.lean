import CoStream.Foundation.Incremental

namespace Foundation

namespace Decoder
variable {α β γ : Type}

-- A stream of these items, encoded one behind the other, is read back.
def Decodes (d : Decoder α β) (encode : γ → List α) (value : γ → β) (items : List γ) : Prop :=
  ∀ item ∈ items, ∀ more, d.next (encode item++more) = some (value item,more)

variable {d : Decoder α β} {encode : γ → List α} {value : γ → β} {items : List γ} {input rest : List α}

theorem next_drain (input : List α) : d.next (d.drain input).2 = none := by
  induction input using d.drain_induction with
  | waits input waits =>
    rw [d.drain_none waits]
    exact waits
  | takes input item rest found ih =>
    rw [d.drain_some found]
    exact ih

-- Where the front of an encoded stream gives an item, the stream goes on behind
-- that item.
theorem next_encoded (decodes : d.Decodes encode value items) (cut : input++rest = items.flatMap encode)
    (found : d.next input = some (item,left)) :
    ∃ first behind, items = first::behind ∧ item = value first ∧ left++rest = behind.flatMap encode := by
  have longer := d.stable found rest
  rw [cut] at longer
  cases items with
  | nil =>
    rw [List.flatMap_nil,d.next_nil] at longer
    cases longer
  | cons first behind =>
    rw [List.flatMap_cons,decodes first List.mem_cons_self] at longer
    obtain ⟨same,goes⟩ := Prod.mk.inj (Option.some.inj longer)
    exact ⟨first,behind,rfl,same.symm,goes.symm⟩

theorem Decodes.behind (decodes : d.Decodes encode value (front++items)) : d.Decodes encode value items :=
  fun item member => decodes item (List.mem_append_right front member)

theorem Decodes.others (decodes : d.Decodes encode value (first::items)) : d.Decodes encode value items :=
  fun item member => decodes item (List.mem_cons_of_mem first member)

theorem drain_encoded (decodes : d.Decodes encode value items) (cut : input++rest = items.flatMap encode) :
    ∃ front back, items = front++back ∧ (d.drain input).1 = front.map value ∧
      (d.drain input).2++rest = back.flatMap encode := by
  induction input using d.drain_induction generalizing items with
  | waits input waits =>
    rw [d.drain_none waits]
    exact ⟨[],items,rfl,rfl,cut⟩
  | takes input item left found ih =>
    obtain ⟨first,behind,rfl,rfl,goes⟩ := next_encoded decodes cut found
    obtain ⟨front,back,rfl,taken,remains⟩ := ih decodes.others goes
    rw [d.drain_some found]
    exact ⟨first::front,back,rfl,congrArg _ taken,remains⟩

theorem reaches_encoded (decodes : d.Decodes encode value items) (cut : input++rest = items.flatMap encode)
    (reached : d.Reaches input place) : ∃ front back, items = front++back ∧ place++rest = back.flatMap encode := by
  induction reached generalizing items with
  | here => exact ⟨[],items,rfl,cut⟩
  | step found reached ih =>
    obtain ⟨first,behind,rfl,-,goes⟩ := next_encoded decodes cut found
    obtain ⟨front,back,rfl,remains⟩ := ih decodes.others goes
    exact ⟨first::front,back,rfl,remains⟩

-- What the decoder waits with is shorter than the item that it waits for.
theorem waits_shorter (decodes : d.Decodes encode value (first::behind))
    (cut : input++rest = (first::behind).flatMap encode) (waits : d.next input = none) :
    input.length < (encode first).length := by
  by_contra long
  rw [List.flatMap_cons] at cut
  obtain ⟨more,whole⟩ := List.prefix_of_prefix_length_le ⟨_,rfl⟩ ⟨_,cut⟩ (Nat.le_of_not_lt long)
  rw [← whole,decodes first List.mem_cons_self] at waits
  cases waits

end Decoder

-- One direction of a connection. `sent` went in, `taken` came out; the receiver
-- holds the front of the rest, and the network has what is behind it.
structure Link {α β γ : Type} (d : Decoder α β) (encode : γ → List α) (value : γ → β) (sent : List γ) (taken : List β)
    (held inFlight : List α) : Prop where
  decodes : d.Decodes encode value sent
  waits : d.next held = none
  cut : ∃ front back, sent = front++back ∧ taken = front.map value ∧ held++inFlight = back.flatMap encode

namespace Link
variable {α β γ : Type} {d : Decoder α β} {encode : γ → List α} {value : γ → β} {sent : List γ} {taken : List β}
  {held chunk inFlight : List α}

theorem start : Link d encode value [] [] [] [] :=
  ⟨fun _ member => absurd member List.not_mem_nil,d.next_nil,[],[],rfl,rfl,rfl⟩

theorem send (link : Link d encode value sent taken held inFlight) (more : d.Decodes encode value items) :
    Link d encode value (sent++items) taken held (inFlight++items.flatMap encode) := by
  obtain ⟨front,back,rfl,rfl,cut⟩ := link.cut
  refine ⟨fun item member => ?_,link.waits,front,back++items,by rw [List.append_assoc],rfl,?_⟩
  · rcases List.mem_append.mp member with early | late
    · exact link.decodes item early
    · exact more item late
  · rw [← List.append_assoc,cut,List.flatMap_append]

theorem deliver (link : Link d encode value sent taken held (chunk++inFlight)) :
    Link d encode value sent (taken++(d.drain (held++chunk)).1) (d.drain (held++chunk)).2 inFlight := by
  obtain ⟨front,back,rfl,rfl,cut⟩ := link.cut
  rw [← List.append_assoc] at cut
  obtain ⟨some,others,rfl,drained,remains⟩ := d.drain_encoded link.decodes.behind cut
  exact ⟨link.decodes,d.next_drain _,front++some,others,by rw [List.append_assoc],by rw [drained,List.map_append],remains⟩

theorem taken_front (link : Link d encode value sent taken held inFlight) : ∃ front, taken = front.map value ∧ front <+: sent := by
  obtain ⟨front,back,rfl,same,-⟩ := link.cut
  exact ⟨front,same,back,rfl⟩

-- Nothing on the way and a decoder that waits: everything came out.
theorem arrived (link : Link d encode value sent taken held []) : taken = sent.map value := by
  obtain ⟨front,back,rfl,rfl,cut⟩ := link.cut
  cases back with
  | nil => rw [List.append_nil]
  | cons first behind =>
    have shorter := d.waits_shorter link.decodes.behind cut link.waits
    have whole := congrArg List.length cut
    rw [List.flatMap_cons,List.length_append,List.length_append,List.length_nil] at whole
    omega

theorem held_le (link : Link d encode value sent taken held inFlight) (limit : Nat)
    (short : ∀ item ∈ sent, (encode item).length ≤ limit) : held.length ≤ limit := by
  obtain ⟨front,back,rfl,rfl,cut⟩ := link.cut
  cases back with
  | nil =>
    have nothing := (List.append_eq_nil_iff.mp cut).1
    rw [nothing]
    exact Nat.zero_le _
  | cons first behind =>
    have shorter := d.waits_shorter link.decodes.behind cut link.waits
    have most := short first (List.mem_append_right _ List.mem_cons_self)
    omega

-- Behind every place at which the decoder looks, the stream goes on with items.
theorem goes_on (link : Link d encode value sent taken held (chunk++inFlight)) (reached : d.Reaches (held++chunk) place) :
    ∃ back : List γ, (∀ item ∈ back, item ∈ sent) ∧ place++inFlight = back.flatMap encode := by
  obtain ⟨front,back,rfl,-,cut⟩ := link.cut
  rw [← List.append_assoc] at cut
  obtain ⟨some,others,rfl,remains⟩ := d.reaches_encoded link.decodes.behind cut reached
  exact ⟨others,fun item member => List.mem_append_right _ (List.mem_append_right _ member),remains⟩

end Link
end Foundation
