import Mathlib.Algebra.Ring.Nat
import Mathlib.Algebra.Ring.Int.Defs
import Mathlib.Data.List.Induction

namespace Foundation

-- Sequencing in `Except` succeeds exactly when both halves do.
theorem bind_ok {action : Except ε α} {next : α → Except ε β} {result : β} :
    (action >>= next) = .ok result ↔ ∃ middle, action = .ok middle ∧ next middle = .ok result := by
  cases action with
  | error fault => simp [bind,Except.bind]
  | ok middle => simp [bind,Except.bind]

-- It fails where the first half does, or behind a first half that succeeds.
theorem bind_error {action : Except ε α} {next : α → Except ε β} {fault : ε} :
    (action >>= next) = .error fault ↔
      action = .error fault ∨ ∃ middle, action = .ok middle ∧ next middle = .error fault := by
  cases action with
  | error other => simp [bind,Except.bind]
  | ok middle => simp [bind,Except.bind]

-- A fault that neither half has.
theorem bind_avoids {action : Except ε α} {next : α → Except ε β} {fault : ε} (first : action ≠ .error fault)
    (behind : ∀ middle, action = .ok middle → next middle ≠ .error fault) : (action >>= next) ≠ .error fault := by
  intro failed
  rcases bind_error.mp failed with early | ⟨middle,ran,late⟩
  · exact first early
  · exact behind middle ran late

theorem ok_excludes {action : Except ε α} (fails : action = .error fault ↔ outside) (ran : action = .ok value) :
    ¬ outside := by
  rw [← fails,ran]
  intro never
  cases never

theorem map_ok {action : Except ε α} {view : α → β} {seen : β} :
    action.map view = .ok seen ↔ ∃ value, action = .ok value ∧ view value = seen := by
  cases action <;> simp [Except.map]

theorem mapError_ok {action : Except ε α} {view : ε → ζ} : action.mapError view = .ok value ↔ action = .ok value := by
  cases action <;> simp [Except.mapError]

theorem bind_defined {action : Except ε α} {next : α → Except ε β} (goesOn : ∀ middle, ∃ result, next middle = .ok result) :
    (∃ result, (action >>= next) = .ok result) ↔ ∃ middle, action = .ok middle := by
  constructor
  · rintro ⟨result,ran⟩
    obtain ⟨middle,first,-⟩ := bind_ok.mp ran
    exact ⟨middle,first⟩
  · rintro ⟨middle,first⟩
    obtain ⟨result,second⟩ := goesOn middle
    exact ⟨result,bind_ok.mpr ⟨middle,first,second⟩⟩

-- Rewriting rules, not definitional ones: a long `do` block must not be
-- handed to the kernel for unfolding.
@[simp] theorem ok_bind (value : α) (next : α → Except ε β) : (Except.ok value >>= next) = next value := by
  simp [bind,Except.bind]
@[simp] theorem error_bind (fault : ε) (next : α → Except ε β) :
    (Except.error fault >>= next) = .error fault := by
  simp [bind,Except.bind]
@[simp] theorem pure_ok (value : α) : (pure value : Except ε α) = .ok value := by
  simp [pure,Except.pure]

theorem ok_pair {result : α × β} (same : (Except.ok result : Except ε (α × β)) = .ok (first,second)) :
    first = result.1 ∧ second = result.2 := by
  cases same
  exact ⟨rfl,rfl⟩

-- A deterministic machine driven by events. An error says that the event has
-- no defined effect in the state; the run stops there.
structure Machine (σ ι ω ε : Type) where
  initial : σ
  step : σ → ι → Except ε (σ × List ω)

namespace Machine
variable {σ ι ω ε τ υ : Type}

def runFrom (m : Machine σ ι ω ε) : σ → List ι → Except ε (σ × List ω)
  | s,[] => .ok (s,[])
  | s,event::rest => do
    let (middle,emitted) ← m.step s event
    let (final,later) ← m.runFrom middle rest
    return (final,emitted++later)

def run (m : Machine σ ι ω ε) (events : List ι) : Except ε (σ × List ω) := m.runFrom m.initial events

variable (m : Machine σ ι ω ε)

theorem runFrom_cons : m.runFrom s (event::rest) = .ok (final,outputs) ↔
    ∃ middle emitted later, m.step s event = .ok (middle,emitted) ∧
      m.runFrom middle rest = .ok (final,later) ∧ outputs = emitted++later := by
  simp only [runFrom,bind_ok,Prod.exists,pure_ok,Except.ok.injEq,Prod.mk.injEq]
  constructor
  · rintro ⟨middle,emitted,stepped,last,later,continued,rfl,rfl⟩
    exact ⟨middle,emitted,later,stepped,continued,rfl⟩
  · rintro ⟨middle,emitted,later,stepped,continued,rfl⟩
    exact ⟨middle,emitted,stepped,final,later,continued,rfl,rfl⟩

@[simp] theorem runFrom_nil : m.runFrom s [] = .ok (s,[]) := rfl

theorem runFrom_append : m.runFrom s (first++second) = .ok (final,outputs) ↔
    ∃ middle earlier later, m.runFrom s first = .ok (middle,earlier) ∧
      m.runFrom middle second = .ok (final,later) ∧ outputs = earlier++later := by
  induction first generalizing s outputs with
  | nil => simp [runFrom]
  | cons event rest ih =>
    rw [List.cons_append,runFrom_cons]
    constructor
    · rintro ⟨next,emitted,after,stepped,continued,rfl⟩
      obtain ⟨middle,earlier,later,front,back,rfl⟩ := ih.mp continued
      exact ⟨middle,emitted++earlier,later,m.runFrom_cons.mpr ⟨next,emitted,earlier,stepped,front,rfl⟩,
        back,by rw [List.append_assoc]⟩
    · rintro ⟨middle,earlier,later,front,back,rfl⟩
      obtain ⟨next,emitted,between,stepped,continued,rfl⟩ := m.runFrom_cons.mp front
      exact ⟨next,emitted,between++later,stepped,ih.mpr ⟨middle,between,later,continued,back,rfl⟩,
        by rw [List.append_assoc]⟩

theorem runFrom_after (first : m.runFrom s before = .ok (middle,earlier)) (after : List ι) :
    m.runFrom s (before++after) = (m.runFrom middle after).map fun result => (result.1,earlier++result.2) := by
  cases second : m.runFrom middle after with
  | ok result => exact m.runFrom_append.mpr ⟨middle,earlier,result.2,first,second,rfl⟩
  | error fault =>
    induction before generalizing s earlier with
    | nil =>
      cases first
      exact second
    | cons event rest ih =>
      obtain ⟨next,emitted,later,stepped,continued,rfl⟩ := m.runFrom_cons.mp first
      rw [List.cons_append,runFrom,stepped,ok_bind]
      dsimp only
      rw [ih continued]
      rfl

-- A view of the outputs that goes through them one by one can be taken of the
-- two parts.
theorem view_after (view : List ω → List υ) (splits : ∀ one two, view (one++two) = view one++view two)
    (first : m.run before = .ok (middle,earlier)) (after : List ι) :
    (m.run (before++after)).map (fun result => view result.2) =
      (m.runFrom middle after).map (fun result => view earlier++view result.2) := by
  rw [run,m.runFrom_after first]
  cases m.runFrom middle after with
  | error fault => rfl
  | ok result => exact congrArg Except.ok (splits earlier result.2)

theorem runFrom_snoc : m.runFrom s (first++[event]) = .ok (final,outputs) ↔
    ∃ middle earlier emitted, m.runFrom s first = .ok (middle,earlier) ∧
      m.step middle event = .ok (final,emitted) ∧ outputs = earlier++emitted := by
  rw [runFrom_append]
  simp only [runFrom_cons,runFrom_nil,Except.ok.injEq,Prod.mk.injEq]
  constructor
  · rintro ⟨middle,earlier,later,front,⟨next,emitted,rest,stepped,⟨rfl,rfl⟩,rfl⟩,rfl⟩
    exact ⟨middle,earlier,emitted,front,stepped,by simp⟩
  · rintro ⟨middle,earlier,emitted,front,stepped,rfl⟩
    exact ⟨middle,earlier,emitted,front,⟨final,emitted,[],stepped,⟨rfl,rfl⟩,by simp⟩,rfl⟩

-- A guard is read at every event that a run reaches, with what was emitted and
-- the state before the event.
def Guarded (Guard : List ω → σ → ι → Prop) (events : List ι) : Prop :=
  ∀ before event after, events = before++event::after →
    ∀ s outputs, m.run before = .ok (s,outputs) → Guard outputs s event

theorem Guarded.front (guarded : m.Guarded Guard (before++after)) : m.Guarded Guard before :=
  fun start event rest shape => guarded start event (rest++after) (by simp [shape])

-- The invariant speaks of the whole history: the events so far, what was
-- emitted for them, and the state they lead to. `Admissible` narrows the runs
-- that are looked at, say to the calls a caller may make.
theorem admissible_history (Admissible : List ι → Prop) (Guard : List ω → σ → ι → Prop)
    (Holds : List ι → List ω → σ → Prop) (closed : ∀ before after, Admissible (before++after) → Admissible before)
    (initially : Holds [] [] m.initial)
    (preserved : ∀ events outputs s event next emitted, Admissible (events++[event]) → Holds events outputs s →
      Guard outputs s event → m.step s event = .ok (next,emitted) → Holds (events++[event]) (outputs++emitted) next)
    (events : List ι) (admissible : Admissible events) (guarded : m.Guarded Guard events)
    (ran : m.run events = .ok (s,outputs)) : Holds events outputs s := by
  induction events using List.reverseRecOn generalizing s outputs with
  | nil =>
    cases ran
    exact initially
  | append_singleton before event ih =>
    obtain ⟨middle,earlier,emitted,front,stepped,rfl⟩ := m.runFrom_snoc.mp ran
    have held := ih (closed _ _ admissible) (Guarded.front m guarded) front
    exact preserved _ _ _ _ _ _ admissible held (guarded before event [] rfl middle earlier front) stepped

theorem guarded_history (Guard : List ω → σ → ι → Prop) (Holds : List ι → List ω → σ → Prop)
    (initially : Holds [] [] m.initial)
    (preserved : ∀ events outputs s event next emitted, Holds events outputs s → Guard outputs s event →
      m.step s event = .ok (next,emitted) → Holds (events++[event]) (outputs++emitted) next)
    (events : List ι) (guarded : m.Guarded Guard events) (ran : m.run events = .ok (s,outputs)) :
    Holds events outputs s :=
  m.admissible_history (fun _ => True) Guard Holds (fun _ _ _ => trivial) initially
    (fun _ _ _ _ _ _ _ => preserved _ _ _ _ _ _) events trivial guarded ran

theorem history (Holds : List ι → List ω → σ → Prop) (initially : Holds [] [] m.initial)
    (preserved : ∀ events outputs s event next emitted, Holds events outputs s →
      m.step s event = .ok (next,emitted) → Holds (events++[event]) (outputs++emitted) next)
    (ran : m.run events = .ok (s,outputs)) : Holds events outputs s :=
  m.guarded_history (fun _ _ _ => True) Holds initially
    (fun _ _ _ _ _ _ held _ stepped => preserved _ _ _ _ _ _ held stepped) events (fun _ _ _ _ _ _ _ => trivial) ran

-- A property of histories that holds at every point of a run.
def Throughout (Good : List ι → List ω → σ → Prop) (events : List ι) : Prop :=
  ∀ before after s outputs, events = before++after → m.run before = .ok (s,outputs) → Good before outputs s

theorem Throughout.front (throughout : m.Throughout Good (before++after)) : m.Throughout Good before :=
  fun start rest s outputs shape => throughout start (rest++after) s outputs (by simp [shape])

theorem Guarded.nil : m.Guarded Guard [] := by
  intro before event after shape
  exact absurd shape (by simp)

theorem Guarded.snoc (guarded : m.Guarded Guard start)
    (last : ∀ s outputs, m.run start = .ok (s,outputs) → Guard outputs s event) : m.Guarded Guard (start++[event]) := by
  intro before other after shape s outputs ran
  rcases List.eq_nil_or_concat after with rfl | ⟨rest,final,rfl⟩
  · obtain ⟨rfl,same⟩ := List.append_inj' shape rfl
    cases same
    exact last s outputs ran
  · rw [List.concat_eq_append,← List.cons_append,← List.append_assoc] at shape
    exact guarded before other rest (List.append_inj' shape rfl).1 s outputs ran

-- The guard keeps an invariant under which every history is good, and a good
-- step out of the invariant has met the guard: then the runs that are good
-- throughout are the guarded ones.
theorem throughout_iff (Admissible : List ι → Prop) (Guard : List ω → σ → ι → Prop)
    (Holds Good : List ι → List ω → σ → Prop) (closed : ∀ before after, Admissible (before++after) → Admissible before)
    (initially : Holds [] [] m.initial)
    (preserved : ∀ events outputs s event next emitted, Admissible (events++[event]) → Holds events outputs s →
      Guard outputs s event → m.step s event = .ok (next,emitted) → Holds (events++[event]) (outputs++emitted) next)
    (good : ∀ events outputs s, Holds events outputs s → Good events outputs s)
    (forced : ∀ events outputs s event next emitted, Admissible (events++[event]) → Holds events outputs s →
      m.step s event = .ok (next,emitted) → Good (events++[event]) (outputs++emitted) next → Guard outputs s event)
    (disabled : ∀ events outputs s event fault, Admissible (events++[event]) → Holds events outputs s →
      m.step s event = .error fault → Guard outputs s event)
    (events : List ι) (admissible : Admissible events) : m.Throughout Good events ↔ m.Guarded Guard events := by
  constructor
  · intro throughout
    induction events using List.reverseRecOn with
    | nil => exact Guarded.nil m
    | append_singleton front event ih =>
      have shorter := closed _ _ admissible
      have guarded := ih shorter (Throughout.front m throughout)
      apply Guarded.snoc m guarded
      intro s outputs ran
      have held := m.admissible_history Admissible Guard Holds closed initially preserved front shorter guarded ran
      cases stepped : m.step s event with
      | error fault => exact disabled _ _ _ _ fault admissible held stepped
      | ok result =>
        have snoc := m.runFrom_snoc.mpr ⟨s,outputs,result.2,ran,stepped,rfl⟩
        exact forced _ _ _ _ _ _ admissible held stepped (throughout (front++[event]) [] _ _ (List.append_nil _).symm snoc)
  · rintro guarded before after s outputs rfl ran
    exact good _ _ _ (m.admissible_history Admissible Guard Holds closed initially preserved before (closed _ _ admissible)
      (Guarded.front m guarded) ran)

-- A property of the outputs that every step adds to by itself: it holds
-- throughout a run whose steps meet the guard, and where a good step has met the
-- guard, in no other run.
section stepwise
variable {Small Framed Guard : σ → ι → Prop} (Steady : σ → Prop) (Good : List ω → Prop)

theorem steady_run (initially : Steady m.initial)
    (preserved : ∀ s event next emitted, Steady s → Small s event → m.step s event = .ok (next,emitted) → Steady next)
    (small : m.Guarded (fun _ => Small) events) (ran : m.run events = .ok (s,outputs)) : Steady s :=
  m.guarded_history (fun _ => Small) (fun _ _ s => Steady s) initially
    (fun _ _ s event next emitted steady small => preserved s event next emitted steady small) events small ran

theorem stepwise_good (initially : Steady m.initial) (empty : Good [])
    (joins : ∀ one two, Good (one++two) ↔ Good one ∧ Good two)
    (preserved : ∀ s event next emitted, Steady s → Small s event → m.step s event = .ok (next,emitted) → Steady next)
    (good : ∀ s event next emitted, Steady s → Small s event → m.step s event = .ok (next,emitted) → Guard s event →
      Good emitted)
    (small : m.Guarded (fun _ => Small) events) (guarded : m.Guarded (fun _ => Guard) events) :
    m.Throughout (fun _ outputs _ => Good outputs) events := by
  rintro before after s outputs rfl ran
  have both : Steady s ∧ Good outputs := by
    refine m.guarded_history (fun _ s event => Small s event ∧ Guard s event) (fun _ outputs s => Steady s ∧ Good outputs)
      ⟨initially,empty⟩ ?_ before ?_ ran
    · rintro events outputs s event next emitted ⟨steady,earlier⟩ ⟨room,met⟩ stepped
      exact ⟨preserved s event next emitted steady room stepped,
        (joins _ _).mpr ⟨earlier,good s event next emitted steady room stepped met⟩⟩
    · intro front event rest shape s outputs ran
      exact ⟨Guarded.front m small front event rest shape s outputs ran,
        Guarded.front m guarded front event rest shape s outputs ran⟩
  exact both.2

theorem stepwise_forced (initially : Steady m.initial) (joins : ∀ one two, Good (one++two) ↔ Good one ∧ Good two)
    (preserved : ∀ s event next emitted, Steady s → Small s event → m.step s event = .ok (next,emitted) → Steady next)
    (forced : ∀ s event next emitted, Steady s → Small s event → Framed s event → m.step s event = .ok (next,emitted) →
      Good emitted → Guard s event)
    (disabled : ∀ s event fault, Steady s → Framed s event → m.step s event = .error fault → Guard s event)
    (small : m.Guarded (fun _ => Small) events) (framed : m.Guarded (fun _ => Framed) events)
    (throughout : m.Throughout (fun _ outputs _ => Good outputs) events) : m.Guarded (fun _ => Guard) events := by
  rintro before event after rfl s outputs ran
  have steady := m.steady_run Steady initially preserved (Guarded.front m small) ran
  have room := small before event after rfl s outputs ran
  have within := framed before event after rfl s outputs ran
  cases stepped : m.step s event with
  | error fault => exact disabled s event fault steady within stepped
  | ok result =>
    have longer := m.runFrom_snoc.mpr ⟨s,outputs,result.2,ran,stepped,rfl⟩
    have whole := throughout (before++[event]) after _ _ (by simp) longer
    exact forced s event result.1 result.2 steady room within stepped ((joins _ _).mp whole).2

end stepwise

-- Where single steps are defined exactly under a guard, so are whole runs: the
-- guard must hold wherever the run gets.
theorem run_defined (Guard : σ → ι → Prop)
    (exactly : ∀ s event, (∃ result, m.step s event = .ok result) ↔ Guard s event) (events : List ι) :
    (∃ result, m.run events = .ok result) ↔ m.Guarded (fun _ => Guard) events := by
  constructor
  · rintro ⟨⟨final,outputs⟩,ran⟩ before event after rfl s earlier front
    obtain ⟨middle,emitted,later,frontAgain,back,-⟩ := m.runFrom_append.mp ran
    cases front.symm.trans frontAgain
    obtain ⟨next,now,_,stepped,-,-⟩ := m.runFrom_cons.mp back
    exact (exactly s event).mp ⟨_,stepped⟩
  · intro guarded
    induction events using List.reverseRecOn with
    | nil => exact ⟨_,rfl⟩
    | append_singleton before event ih =>
      obtain ⟨⟨s,outputs⟩,front⟩ := ih (Guarded.front m guarded)
      obtain ⟨⟨next,emitted⟩,stepped⟩ := (exactly s event).mpr (guarded before event [] rfl s outputs front)
      exact ⟨_,m.runFrom_snoc.mpr ⟨s,outputs,emitted,front,stepped,rfl⟩⟩

-- The same machine, seen through what an observer notes at each of its steps.
def observe (view : σ → ι → List ω → List υ) : Machine σ ι υ ε :=
  ⟨m.initial,fun s event => (m.step s event).map fun stepped => (stepped.1,view s event stepped.2)⟩

theorem observe_step {view : σ → ι → List ω → List υ} : (m.observe view).step s event = .ok (next,noted) ↔
    ∃ emitted, m.step s event = .ok (next,emitted) ∧ noted = view s event emitted := by
  unfold observe
  constructor
  · intro stepped
    obtain ⟨⟨reached,emitted⟩,first,same⟩ := map_ok.mp stepped
    obtain ⟨rfl,rfl⟩ := Prod.mk.inj same
    exact ⟨emitted,first,rfl⟩
  · rintro ⟨emitted,stepped,rfl⟩
    exact map_ok.mpr ⟨_,stepped,rfl⟩

-- An observer misses no run, and what it notes one by one it notes of the whole.
theorem observe_run {view : σ → ι → List ω → List υ} (noted : List υ → List τ) (shown : List ω → List τ)
    (empty : noted [] = shown []) (notedSplits : ∀ one two, noted (one++two) = noted one++noted two)
    (shownSplits : ∀ one two, shown (one++two) = shown one++shown two)
    (agree : ∀ s event emitted, noted (view s event emitted) = shown emitted)
    (ran : m.runFrom s events = .ok (final,outputs)) :
    ∃ seen, (m.observe view).runFrom s events = .ok (final,seen) ∧ noted seen = shown outputs := by
  induction events generalizing s outputs with
  | nil =>
    cases ran
    exact ⟨[],rfl,empty⟩
  | cons event rest ih =>
    obtain ⟨middle,emitted,later,stepped,continued,rfl⟩ := m.runFrom_cons.mp ran
    obtain ⟨seen,observed,same⟩ := ih continued
    refine ⟨view s event emitted++seen,(m.observe view).runFrom_cons.mpr
      ⟨middle,_,seen,(m.observe_step).mpr ⟨emitted,stepped,rfl⟩,observed,rfl⟩,?_⟩
    rw [notedSplits,shownSplits,agree,same]

-- The same machine with a history variable beside its state. The variable is
-- written and never read, so it neither adds a run nor loses one.
def recording (note : σ → τ → ι → τ) (start : τ) : Machine (σ × τ) ι ω ε :=
  ⟨(m.initial,start),fun s event => (m.step s.1 event).map fun stepped => ((stepped.1,note s.1 s.2 event),stepped.2)⟩

theorem recording_step {note : σ → τ → ι → τ} {start : τ} :
    (m.recording note start).step (s,kept) event = .ok ((next,later),emitted) ↔
      m.step s event = .ok (next,emitted) ∧ later = note s kept event := by
  unfold recording
  constructor
  · intro stepped
    obtain ⟨⟨reached,output⟩,first,same⟩ := map_ok.mp stepped
    cases same
    exact ⟨first,rfl⟩
  · rintro ⟨stepped,rfl⟩
    exact map_ok.mpr ⟨_,stepped,rfl⟩

theorem recording_run {note : σ → τ → ι → τ} {start : τ} : m.run events = .ok (s,outputs) ↔
    ∃ kept, (m.recording note start).run events = .ok ((s,kept),outputs) := by
  induction events using List.reverseRecOn generalizing s outputs with
  | nil =>
    constructor
    · intro ran
      cases ran
      exact ⟨start,rfl⟩
    · rintro ⟨kept,ran⟩
      cases ran
      rfl
  | append_singleton before event ih =>
    constructor
    · intro ran
      obtain ⟨middle,earlier,emitted,front,stepped,rfl⟩ := m.runFrom_snoc.mp ran
      obtain ⟨kept,recorded⟩ := ih.mp front
      exact ⟨note middle kept event,(m.recording note start).runFrom_snoc.mpr
        ⟨(middle,kept),earlier,emitted,recorded,(m.recording_step).mpr ⟨stepped,rfl⟩,rfl⟩⟩
    · rintro ⟨last,ran⟩
      obtain ⟨⟨middle,kept⟩,earlier,emitted,front,stepped,rfl⟩ := (m.recording note start).runFrom_snoc.mp ran
      exact m.runFrom_snoc.mpr ⟨middle,earlier,emitted,ih.mpr ⟨kept,front⟩,((m.recording_step).mp stepped).1,rfl⟩

-- The runs an abstract side admits, each event in the state before it.
def AdmittedFrom (spec : τ → ι → τ) (Admits : τ → ι → Prop) : τ → List ι → Prop
  | _,[] => True
  | t,event::rest => Admits t event ∧ AdmittedFrom spec Admits (spec t event) rest

theorem admittedFrom_append {spec : τ → ι → τ} {Admits : τ → ι → Prop} {first second : List ι} :
    AdmittedFrom spec Admits t (first++second) ↔
      AdmittedFrom spec Admits t first ∧ AdmittedFrom spec Admits (first.foldl spec t) second := by
  induction first generalizing t with
  | nil => simp [AdmittedFrom]
  | cons event rest ih => simp [AdmittedFrom,ih,and_assoc]

-- Forward simulation by a total abstract machine: as long as the abstract side
-- admits the events, the concrete run is defined and stays related to it.
theorem simulates (spec : τ → ι → τ) (Admits : τ → ι → Prop) (Related : σ → τ → Prop)
    (stepwise : ∀ s t event, Related s t → Admits t event →
      ∃ next emitted, m.step s event = .ok (next,emitted) ∧ Related next (spec t event))
    (related : Related s t) (admitted : AdmittedFrom spec Admits t events) :
    ∃ final outputs, m.runFrom s events = .ok (final,outputs) ∧ Related final (events.foldl spec t) := by
  induction events generalizing s t with
  | nil => exact ⟨s,[],rfl,related⟩
  | cons event rest ih =>
    obtain ⟨middle,emitted,stepped,relatedMiddle⟩ := stepwise s t event related admitted.1
    obtain ⟨final,later,continued,relatedFinal⟩ := ih relatedMiddle admitted.2
    exact ⟨final,emitted++later,m.runFrom_cons.mpr ⟨middle,emitted,later,stepped,continued,rfl⟩,relatedFinal⟩

-- Two machines that emit the same at every step from related states emit the
-- same over whole runs.
theorem lockstep {other : Machine τ ι ω ε} (Related : σ → τ → Prop)
    (stepwise : ∀ s t event, Related s t → ∃ next following emitted, m.step s event = .ok (next,emitted) ∧
      other.step t event = .ok (following,emitted) ∧ Related next following)
    (events : List ι) (related : Related s t) : ∃ final last outputs, m.runFrom s events = .ok (final,outputs) ∧
      other.runFrom t events = .ok (last,outputs) ∧ Related final last := by
  induction events generalizing s t with
  | nil => exact ⟨s,t,[],rfl,rfl,related⟩
  | cons event rest ih =>
    obtain ⟨next,following,emitted,stepped,followed,relatedNext⟩ := stepwise s t event related
    obtain ⟨final,last,later,continued,behind,relatedFinal⟩ := ih relatedNext
    exact ⟨final,last,emitted++later,m.runFrom_cons.mpr ⟨next,emitted,later,stepped,continued,rfl⟩,
      other.runFrom_cons.mpr ⟨following,emitted,later,followed,behind,rfl⟩,relatedFinal⟩

-- A machine that can do what another does from related states can do its whole
-- runs. It may have runs that the other has not.
theorem followed (other : Machine τ ι ω ε) (Related : σ → τ → Prop)
    (stepwise : ∀ s t event next emitted, Related s t → m.step s event = .ok (next,emitted) →
      ∃ following, other.step t event = .ok (following,emitted) ∧ Related next following)
    (events : List ι) (related : Related s t) (ran : m.runFrom s events = .ok (final,outputs)) :
    ∃ last, other.runFrom t events = .ok (last,outputs) ∧ Related final last := by
  induction events generalizing s t outputs with
  | nil =>
    cases ran
    exact ⟨t,rfl,related⟩
  | cons event rest ih =>
    obtain ⟨middle,emitted,later,stepped,continued,rfl⟩ := m.runFrom_cons.mp ran
    obtain ⟨following,followed,relatedNext⟩ := stepwise _ _ _ _ _ related stepped
    obtain ⟨last,behind,relatedFinal⟩ := ih relatedNext continued
    exact ⟨last,other.runFrom_cons.mpr ⟨following,emitted,later,followed,behind,rfl⟩,relatedFinal⟩

end Machine
end Foundation
