import CoStream.Foundation.Machine

namespace Foundation

-- A view of a result that is known is the view of every name for it.
theorem map_seen {action : Except ε α} {view : α → β} (seen : action.map view = .ok value) (ran : action = .ok result) :
    view result = value := by
  rw [ran] at seen
  exact Except.ok.inj seen

namespace Machine
variable {σ ι ω ε τ : Type} (m : Machine σ ι ω ε)

-- A pipe through a machine: what the events bring comes out in the outputs or
-- is still held, in order and each item once. `Kept` is what the pipe needs of
-- the states.
theorem conserves (brings : ι → List τ) (held : σ → List τ) (emits : ω → List τ) (Kept : σ → Prop)
    (stepwise : ∀ s event next emitted, Kept s → m.step s event = .ok (next,emitted) →
      Kept next ∧ emitted.flatMap emits++held next = held s++brings event)
    (start : Kept s) (ran : m.runFrom s events = .ok (final,outputs)) :
    Kept final ∧ outputs.flatMap emits++held final = held s++events.flatMap brings := by
  induction events generalizing s outputs with
  | nil =>
    cases ran
    exact ⟨start,by simp⟩
  | cons event rest ih =>
    obtain ⟨middle,emitted,later,stepped,continued,rfl⟩ := m.runFrom_cons.mp ran
    obtain ⟨keptMiddle,now⟩ := stepwise _ _ _ _ start stepped
    obtain ⟨keptFinal,behind⟩ := ih keptMiddle continued
    refine ⟨keptFinal,?_⟩
    calc (emitted++later).flatMap emits++held final
        = emitted.flatMap emits++(later.flatMap emits++held final) := by rw [List.flatMap_append,List.append_assoc]
      _ = emitted.flatMap emits++held middle++rest.flatMap brings := by rw [behind,List.append_assoc]
      _ = held s++(event::rest).flatMap brings := by rw [now,List.append_assoc,List.flatMap_cons]

-- `history` for a run that starts in some state.
theorem runFrom_keeps (Holds : List ω → σ → Prop) (initially : Holds [] s)
    (preserved : ∀ outputs s event next emitted, Holds outputs s → m.step s event = .ok (next,emitted) →
      Holds (outputs++emitted) next) (ran : m.runFrom s events = .ok (final,outputs)) : Holds outputs final := by
  induction events using List.reverseRecOn generalizing final outputs with
  | nil =>
    cases ran
    exact initially
  | append_singleton before event ih =>
    obtain ⟨middle,earlier,emitted,front,stepped,rfl⟩ := m.runFrom_snoc.mp ran
    exact preserved _ _ _ _ _ (ih front) stepped

-- A state that no step leaves and in which no step emits.
theorem silent (Stuck : σ → Prop)
    (stepwise : ∀ s event next emitted, Stuck s → m.step s event = .ok (next,emitted) → Stuck next ∧ emitted = [])
    (start : Stuck s) (ran : m.runFrom s events = .ok (final,outputs)) : Stuck final ∧ outputs = [] := by
  induction events generalizing s outputs with
  | nil =>
    cases ran
    exact ⟨start,rfl⟩
  | cons event rest ih =>
    obtain ⟨middle,emitted,later,stepped,continued,rfl⟩ := m.runFrom_cons.mp ran
    obtain ⟨stuckMiddle,rfl⟩ := stepwise _ _ _ _ start stepped
    obtain ⟨stuckFinal,rfl⟩ := ih stuckMiddle continued
    exact ⟨stuckFinal,rfl⟩

-- A property of what a run has done, which each step keeps exactly under a
-- guard: it holds behind the runs whose every step has met the guard.
theorem whole_iff_guarded {Guard : σ → ι → Prop} (Kept Whole : List ω → σ → Prop) (kept : Kept [] m.initial)
    (whole : Whole [] m.initial)
    (stepwise : ∀ outputs s event next emitted, Kept outputs s → m.step s event = .ok (next,emitted) →
      Kept (outputs++emitted) next ∧ (Whole (outputs++emitted) next ↔ Whole outputs s ∧ Guard s event))
    (ran : m.run events = .ok (s,outputs)) : Kept outputs s ∧ (Whole outputs s ↔ m.Guarded (fun _ => Guard) events) := by
  induction events using List.reverseRecOn generalizing s outputs with
  | nil =>
    cases ran
    exact ⟨kept,iff_of_true whole (Guarded.nil m)⟩
  | append_singleton before event ih =>
    obtain ⟨middle,earlier,emitted,front,stepped,rfl⟩ := m.runFrom_snoc.mp ran
    obtain ⟨keptMiddle,wholeMiddle⟩ := ih front
    obtain ⟨keptLast,wholeLast⟩ := stepwise _ _ _ _ _ keptMiddle stepped
    refine ⟨keptLast,?_⟩
    rw [wholeLast,wholeMiddle]
    constructor
    · rintro ⟨guarded,met⟩
      apply Guarded.snoc m guarded
      intro s outputs again
      cases front.symm.trans again
      exact met
    · intro guarded
      exact ⟨Guarded.front m guarded,guarded before event [] rfl middle earlier front⟩

-- A run fails where one of its steps does.
theorem runFrom_fails {fault : ε} : m.runFrom s events = .error fault ↔ ∃ before event after middle outputs,
    events = before++event::after ∧ m.runFrom s before = .ok (middle,outputs) ∧ m.step middle event = .error fault := by
  constructor
  · intro failed
    induction events generalizing s with
    | nil => cases failed
    | cons event rest ih =>
      rcases bind_error.mp failed with here | ⟨⟨middle,emitted⟩,stepped,behind⟩
      · exact ⟨[],event,rest,s,[],rfl,rfl,here⟩
      · have later : m.runFrom middle rest = .error fault := by
          rcases bind_error.mp behind with later | ⟨result,-,returned⟩
          · exact later
          · cases returned
        obtain ⟨before,other,after,final,outputs,rfl,front,fails⟩ := ih later
        exact ⟨event::before,other,after,final,_,rfl,m.runFrom_cons.mpr ⟨middle,emitted,outputs,stepped,front,rfl⟩,fails⟩
  · rintro ⟨before,event,after,middle,outputs,rfl,front,fails⟩
    rw [m.runFrom_after front,runFrom,fails]
    rfl

-- Where the states a run reaches are kept in an invariant, and a step out of it
-- fails in one way exactly outside a guard, a run fails in that way exactly
-- where the guard is not met. `Within` narrows the runs that are looked at.
theorem avoids_within {fault : ε} {Within Guard : σ → ι → Prop} (Kept : σ → Prop) (kept : Kept m.initial)
    (keeps : ∀ s event next emitted, Kept s → Within s event → m.step s event = .ok (next,emitted) → Kept next)
    (exactly : ∀ s event, Kept s → Within s event → (m.step s event = .error fault ↔ ¬ Guard s event)) (events : List ι)
    (within : m.Guarded (fun _ => Within) events) :
    m.run events ≠ .error fault ↔ m.Guarded (fun _ => Guard) events := by
  have reached : ∀ before event after s outputs, events = before++event::after → m.run before = .ok (s,outputs) → Kept s := by
    intro before event after s outputs shape ran
    apply m.guarded_history (fun _ => Within) (fun _ _ s => Kept s) kept
      (fun _ _ s event next emitted held allowed => keeps s event next emitted held allowed) before _ ran
    intro front middle behind split
    exact within front middle (behind++event::after) (by rw [shape,split,List.append_assoc]; rfl)
  constructor
  · rintro avoids before event after shape s outputs front
    by_contra outside
    have held := reached before event after s outputs shape front
    exact avoids (m.runFrom_fails.mpr ⟨before,event,after,s,outputs,shape,front,
      (exactly s event held (within before event after shape s outputs front)).mpr outside⟩)
  · rintro guarded failed
    obtain ⟨before,event,after,s,outputs,shape,front,fails⟩ := m.runFrom_fails.mp failed
    have held := reached before event after s outputs shape front
    exact (exactly s event held (within before event after shape s outputs front)).mp fails
      (guarded before event after shape s outputs front)

theorem avoids_iff {fault : ε} {Guard : σ → ι → Prop} (Kept : σ → Prop) (kept : Kept m.initial)
    (keeps : ∀ s event next emitted, Kept s → m.step s event = .ok (next,emitted) → Kept next)
    (exactly : ∀ s event, Kept s → (m.step s event = .error fault ↔ ¬ Guard s event)) (events : List ι) :
    m.run events ≠ .error fault ↔ m.Guarded (fun _ => Guard) events := by
  have every : m.Guarded (fun _ _ _ => True) events := fun _ _ _ _ _ _ _ => trivial
  exact m.avoids_within Kept kept (fun s event next emitted held _ => keeps s event next emitted held)
    (fun s event held _ => exactly s event held) events every

-- Where a step is refused in one way only, or keeps an invariant of the run so
-- far, runs are refused in that way only. `Allowed` narrows the events.
theorem allowed_runs {fault : ε} (Allowed : ι → Prop) (Kept : List ι → List ω → σ → Prop) (kept : Kept [] [] m.initial)
    (steps : ∀ before outputs s event, Allowed event → Kept before outputs s → m.step s event = .error fault ∨
      ∃ next emitted, m.step s event = .ok (next,emitted) ∧ Kept (before++[event]) (outputs++emitted) next)
    (events : List ι) (allowed : ∀ event ∈ events, Allowed event) :
    (∀ stopped, m.run events = .error stopped → stopped = fault) ∧
      ∀ s outputs, m.run events = .ok (s,outputs) → Kept events outputs s := by
  have runs : ∀ events s outputs, (∀ event ∈ events, Allowed event) → m.run events = .ok (s,outputs) →
      Kept events outputs s := by
    intro events s outputs allowed ran
    refine m.admissible_history (fun events => ∀ event ∈ events, Allowed event) (fun _ _ _ => True) Kept
      (fun before after all event member => all event (List.mem_append_left after member)) kept ?_ events allowed
      (fun _ _ _ _ _ _ _ => trivial) ran
    intro before earlier s event next emitted all held _ stepped
    have fits := all event (List.mem_append_right before List.mem_cons_self)
    rcases steps before earlier s event fits held with refused | ⟨other,said,taken,later⟩
    · rw [refused] at stepped
      cases stepped
    · cases taken.symm.trans stepped
      exact later
  refine ⟨fun stopped failed => ?_,fun s outputs ran => runs events s outputs allowed ran⟩
  obtain ⟨before,event,after,middle,outputs,rfl,front,fails⟩ := m.runFrom_fails.mp failed
  have fits := allowed event (List.mem_append_right before List.mem_cons_self)
  have held := runs before middle outputs (fun other member => allowed other (List.mem_append_left _ member)) front
  rcases steps before outputs middle event fits held with refused | ⟨next,emitted,taken,-⟩
  · rw [refused] at fails
    exact (Except.error.inj fails).symm
  · rw [taken] at fails
    cases fails

-- The same with an invariant that counts the steps.
theorem counted {fault : ε} (Kept : Nat → List ω → σ → Prop) (kept : Kept 0 [] m.initial)
    (steps : ∀ count outputs s event, Kept count outputs s → m.step s event = .error fault ∨
      ∃ next emitted, m.step s event = .ok (next,emitted) ∧ Kept (count+1) (outputs++emitted) next) (events : List ι) :
    (∀ stopped, m.run events = .error stopped → stopped = fault) ∧
      ∀ s outputs, m.run events = .ok (s,outputs) → Kept events.length outputs s := by
  refine m.allowed_runs (fun _ => True) (fun events => Kept events.length) kept ?_ events fun _ _ => trivial
  intro before outputs s event _ held
  rw [List.length_append,List.length_singleton]
  exact steps before.length outputs s event held

end Machine
end Foundation
