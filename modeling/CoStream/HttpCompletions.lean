import CoStream.HttpAnswers
import CoStream.HttpDelivery

namespace CoStream
open Foundation
namespace HttpSession

-- What comes behind the last read: calls on the response that the handler has
-- kept, and the completions of what was written.
inductive Later where
  | call (call : ResponseCall)
  | written (retCode : Int) (sentSize : Nat)

def Later.event : Later → Event
  | .call given => .respond given
  | .written retCode sentSize => .written retCode sentSize

-- What is heard of a session, event by event.
def told (server : Handlers HttpHandle) : HttpSession → List Later → Except Exn (List (List Note))
  | _,[] => .ok []
  | s,later::rest => do
    let (next,notes) ← (heard server).step s later.event
    let behind ← told server next rest
    return notes::behind

-- The second session does what the first one does, when the first one is charged
-- with a completion more.
def Agree (server : Handlers HttpHandle) (size : Nat) (later : List Later) (s t : HttpSession) : Prop :=
  ∃ next, (heard server).step s (.written 0 size) = .ok (next,[]) ∧ told server next later = told server t later

-- Where the last Write has announced no more, a successful completion leaves
-- nothing of the response behind it, or more than so many bytes.
def Spared (size : Nat) (t : HttpSession) : Later → Prop
  | .written retCode sentSize => retCode = 0 → t.isClosed = false → ∀ r, t.response = some r → r.continueFlag = false →
      r.remainBytes-sentSize ≤ 0 ∨ size < r.remainBytes-sentSize
  | .call _ => True

def Outlasts (server : Handlers HttpHandle) (size : Nat) : HttpSession → List Later → Prop
  | _,[] => True
  | t,later::rest => Spared size t later ∧ ∀ next outputs, step server t later.event = .ok (next,outputs) → Outlasts server size next rest

-- The same for the completion that is charged to the session besides.
structure Lasts (server : Handlers HttpHandle) (size : Nat) (later : List Later) (t : HttpSession) : Prop where
  first : t.isClosed = false → ∀ r, t.response = some r → r.continueFlag = false → size < r.remainBytes
  behind : Outlasts server size t later

variable {server : Handlers HttpHandle} {s t : HttpSession} {size : Nat}

-- A session whose response has been charged with so many bytes more.
def charged (s : HttpSession) (size : Nat) : HttpSession :=
  {s with response:=s.response.map fun r => {r with remainBytes:=r.remainBytes-size}}

def Charged (size : Nat) (s t : HttpSession) : Prop :=
  (s.isClosed = true ∧ t.isClosed = true) ∨ ∃ content flag, s = (t.charged size).dressed content flag

theorem write_charged (r : HttpResponse) (size : Nat) (data : Bytes) (flag : Bool) :
    HttpResponse.write {r with remainBytes:=r.remainBytes-size} data flag =
      ({(r.write data flag).1 with remainBytes:=(r.write data flag).1.remainBytes-size},(r.write data flag).2) := by
  unfold HttpResponse.write
  dsimp only
  split
  · rfl
  · dsimp only
    rw [sub_add_eq_add_sub]
    rfl

theorem close_charged (s : HttpSession) (size : Nat) : (s.charged size).close = (s.close.1.charged size,s.close.2) := by
  unfold close charged
  dsimp only
  split
  · rfl
  · cases s.response <;> rfl

theorem respond_charged (s : HttpSession) (size : Nat) (call : ResponseCall) :
    (s.charged size).respond call = ((s.respond call).1.charged size,(s.respond call).2) := by
  cases held : s.response with
  | none =>
    have bare : (s.charged size).response = none := by
      unfold charged
      rw [held]
      rfl
    unfold respond
    rw [held,bare]
  | some r =>
    have same : (s.charged size).response = some {r with remainBytes:=r.remainBytes-size} := by
      unfold charged
      rw [held]
      rfl
    unfold respond
    rw [held,same]
    cases call with
    | write data flag =>
      dsimp only
      rw [write_charged]
      rfl
    | close =>
      dsimp only
      split
      · rfl
      · exact close_charged {s with response:=some (r.setClose true)} size
    | _ => rfl

theorem heard_call (opened : s.isClosed = false) (call : ResponseCall) :
    (heard server).step s (.respond call) = .ok ((s.respond call).1,shown (s.respond call).2) :=
  (machine server).observe_step.mpr ⟨_,step_respond server opened call,rfl⟩

theorem heard_written (server : Handlers HttpHandle) (opened : s.isClosed = false) (retCode : Int) (sentSize : Nat) :
    (heard server).step s (.written retCode sentSize) = .ok ((s.onWrite retCode sentSize).1,shown (s.onWrite retCode sentSize).2) :=
  (machine server).observe_step.mpr ⟨_,if_neg (by simp [opened]),rfl⟩

theorem onWrite_failed (opened : s.isClosed = false) (failed : retCode ≠ 0) (sentSize : Nat) :
    (s.onWrite retCode sentSize).1.isClosed = true ∧ shown (s.onWrite retCode sentSize).2 = [.closed] := by
  have closes := close_closed s
  have said : s.close.2 = [.closed] := by
    unfold close
    rw [if_neg (by simp [opened])]
  have silent : (s.close.1.finishWrite sentSize).2 = [] := by
    unfold finishWrite
    split
    · rfl
    · dsimp only
      split
      · rfl
      · unfold close at closes ⊢
        dsimp only
        rw [if_pos closes]
  unfold onWrite
  dsimp only
  rw [if_pos failed,silent,said]
  exact ⟨finishWrite_closed closes sentSize,rfl⟩

theorem onWrite_absent (absent : s.response = none) (sentSize : Nat) : s.onWrite 0 sentSize = (s,[]) := by
  unfold onWrite finishWrite
  simp [absent]

theorem shown_closed : shown [Output.closed] = [.closed] := rfl

-- A completion behind the charge.
theorem charged_written (opened : t.isClosed = false) (held : t.response = some r) (content : Bytes) (flag : Bool) (sentSize : Nat) :
    (Spared size t (.written 0 sentSize) ∧
      shown (((t.charged size).dressed content flag).onWrite 0 sentSize).2 = shown (t.onWrite 0 sentSize).2 ∧
      Charged size (((t.charged size).dressed content flag).onWrite 0 sentSize).1 (t.onWrite 0 sentSize).1) ∨
    (¬ Spared size t (.written 0 sentSize) ∧
      shown (((t.charged size).dressed content flag).onWrite 0 sentSize).2 ≠ shown (t.onWrite 0 sentSize).2) := by
  have first : ((t.charged size).dressed content flag).isClosed = false := opened
  have same : ((t.charged size).dressed content flag).response = some {r with remainBytes:=r.remainBytes-size} := by
    unfold dressed charged
    rw [held]
    rfl
  have spared : Spared size t (.written 0 sentSize) ↔
      (r.continueFlag = false → r.remainBytes-sentSize ≤ 0 ∨ size < r.remainBytes-sentSize) := by
    constructor
    · exact fun spares => spares rfl opened r held
    · rintro spares _ _ q found
      cases held.symm.trans found
      exact spares
  rw [onWrite_success first same,onWrite_success opened held,spared]
  dsimp only
  by_cases goesOn : r.continueFlag = true
  · left
    rw [if_pos (by simp [goesOn]),if_pos (by simp [goesOn])]
    refine ⟨fun announced => by simp [goesOn] at announced,rfl,.inr ⟨content,r.continueFlag,?_⟩⟩
    unfold charged dressed
    dsimp only [Option.map_some]
    rw [sub_right_comm]
  · have announced : r.continueFlag = false := by simpa using goesOn
    have tests : ∀ left : Int, (r.continueFlag || decide (left > 0)) = true ↔ 0 < left := by simp [announced]
    by_cases behind : r.remainBytes-sentSize > 0
    · by_cases more : size < r.remainBytes-sentSize
      · left
        rw [if_pos ((tests _).mpr (by omega)),if_pos ((tests _).mpr behind)]
        refine ⟨fun _ => .inr more,rfl,.inr ⟨content,r.continueFlag,?_⟩⟩
        unfold charged dressed
        dsimp only [Option.map_some]
        rw [sub_right_comm]
      · right
        rw [if_neg (fun goesOn => more (by have left := (tests _).mp goesOn; omega)),if_pos ((tests _).mpr behind)]
        refine ⟨?_,by rw [shown_closed]; exact List.cons_ne_nil _ _⟩
        intro spares
        rcases spares announced with none | enough
        · omega
        · exact more enough
    · left
      rw [if_neg (fun goesOn => behind (by have left := (tests _).mp goesOn; omega)),
        if_neg (fun goesOn => behind ((tests _).mp goesOn))]
      exact ⟨fun _ => .inl (by omega),rfl,.inl ⟨rfl,rfl⟩⟩

-- One event behind the charge: both do the same exactly where it is spared.
theorem charged_step (server : Handlers HttpHandle) (related : Charged size s t) (later : Later) : ∃ next following one two,
    (heard server).step s later.event = .ok (next,one) ∧ (heard server).step t later.event = .ok (following,two) ∧
      (Spared size t later ∧ one = two ∧ Charged size next following ∨ ¬ Spared size t later ∧ one ≠ two) := by
  have silent : s.isClosed = true → t.isClosed = true → Spared size t later ∧ Charged size s t := by
    intro first second
    refine ⟨?_,.inl ⟨first,second⟩⟩
    cases later with
    | call given => trivial
    | written retCode sentSize =>
      intro _ opened
      simp [second] at opened
  by_cases closed : t.isClosed = true
  · have first : s.isClosed = true := by
      rcases related with ⟨first,-⟩ | ⟨content,flag,rfl⟩
      · exact first
      · exact closed
    obtain ⟨spared,again⟩ := silent first closed
    exact ⟨s,t,[],[],closed_step server first _,closed_step server closed _,.inl ⟨spared,rfl,again⟩⟩
  · have second : t.isClosed = false := by simpa using closed
    obtain ⟨content,flag,rfl⟩ := related.resolve_left fun both => closed both.2
    have opened : ((t.charged size).dressed content flag).isClosed = false := second
    cases later with
    | call given =>
      refine ⟨_,_,_,_,heard_call opened given,heard_call second given,.inl ⟨trivial,?_,.inr ⟨content,flag,?_⟩⟩⟩
      · rw [respond_dressed,respond_charged]
      · rw [respond_dressed,respond_charged]
    | written retCode sentSize =>
      refine ⟨_,_,_,_,heard_written server opened retCode sentSize,heard_written server second retCode sentSize,?_⟩
      by_cases failed : retCode = 0
      · subst failed
        cases held : t.response with
        | none =>
          have absent : ((t.charged size).dressed content flag).response = none := by
            unfold dressed charged
            rw [held]
            rfl
          rw [onWrite_absent absent,onWrite_absent held]
          refine .inl ⟨?_,rfl,.inr ⟨content,flag,rfl⟩⟩
          intro _ _ r found
          rw [held] at found
          cases found
        | some r => exact charged_written second held content flag sentSize
      · obtain ⟨shutFirst,saidFirst⟩ := onWrite_failed opened failed sentSize
        obtain ⟨shutSecond,saidSecond⟩ := onWrite_failed second failed sentSize
        exact .inl ⟨fun zero => absurd zero failed,saidFirst.trans saidSecond.symm,.inl ⟨shutFirst,shutSecond⟩⟩

theorem later_step (server : Handlers HttpHandle) (s : HttpSession) (later : Later) : ∃ result, (heard server).step s later.event = .ok result := by
  cases closed : s.isClosed with
  | true => exact ⟨_,closed_step server closed _⟩
  | false =>
    cases later with
    | call given => exact ⟨_,heard_call closed given⟩
    | written retCode sentSize => exact ⟨_,heard_written server closed retCode sentSize⟩

theorem told_cons (stepped : (heard server).step s later.event = .ok (next,emitted)) :
    told server s (later::rest) = (told server next rest).map (emitted::·) := by
  rw [told,stepped,ok_bind]
  dsimp only
  cases told server next rest <;> rfl

theorem told_ok (server : Handlers HttpHandle) (s : HttpSession) (later : List Later) : ∃ notes, told server s later = .ok notes := by
  induction later generalizing s with
  | nil => exact ⟨[],rfl⟩
  | cons first rest ih =>
    obtain ⟨⟨next,notes⟩,stepped⟩ := later_step server s first
    obtain ⟨behind,continued⟩ := ih next
    rw [told_cons stepped,continued]
    exact ⟨_,rfl⟩

theorem outlasts_cons (stepped : (heard server).step t later.event = .ok (next,emitted)) :
    Outlasts server size t (later::rest) ↔ Spared size t later ∧ Outlasts server size next rest := by
  obtain ⟨outputs,same,-⟩ := (machine server).observe_step.mp stepped
  have acts : step server t later.event = .ok (next,outputs) := same
  rw [Outlasts,acts]
  constructor
  · rintro ⟨spared,goesOn⟩
    exact ⟨spared,goesOn next outputs rfl⟩
  · rintro ⟨spared,goesOn⟩
    refine ⟨spared,?_⟩
    intro other others equal
    cases equal
    exact goesOn

-- The two say the same, event by event, exactly as long as they are spared.
theorem told_charged (server : Handlers HttpHandle) (size : Nat) (related : Charged size s t) (later : List Later) :
    told server s later = told server t later ↔ Outlasts server size t later := by
  induction later generalizing s t with
  | nil => exact ⟨fun _ => trivial,fun _ => rfl⟩
  | cons first rest ih =>
    obtain ⟨next,following,one,two,stepped,followed,either⟩ := charged_step server related first
    obtain ⟨early,firstTold⟩ := told_ok server next rest
    obtain ⟨late,secondTold⟩ := told_ok server following rest
    rw [told_cons stepped,told_cons followed,outlasts_cons followed]
    rcases either with ⟨spared,rfl,again⟩ | ⟨unspared,different⟩
    · rw [← ih again,firstTold,secondTold]
      constructor
      · intro same
        exact ⟨spared,congrArg Except.ok (List.cons.inj (Except.ok.inj same)).2⟩
      · intro same
        rw [Except.ok.inj same.2]
    · rw [firstTold,secondTold]
      constructor
      · intro same
        exact absurd (List.cons.inj (Except.ok.inj same)).1 different
      · intro outlasts
        exact absurd outlasts.1 unspared

theorem outlasts_closed (server : Handlers HttpHandle) (closed : t.isClosed = true) (size : Nat) (later : List Later) :
    Outlasts server size t later :=
  (told_charged server size (.inl ⟨closed,closed⟩) later).mp rfl

-- Where the charge is only a charge, the rest decides.
theorem agree_charged (stepped : (heard server).step s (.written 0 size) = .ok (next,[])) (related : Charged size next t)
    (later : List Later) : Agree server size later s t ↔ Outlasts server size t later := by
  rw [← told_charged server size related later]
  constructor
  · rintro ⟨other,again,equal⟩
    cases stepped.symm.trans again
    exact equal
  · exact fun equal => ⟨next,stepped,equal⟩

-- The completion that is charged to the first session besides.
theorem agree_iff (server : Handlers HttpHandle) (size : Nat) (later : List Later)
    (related : (s.isClosed = true ∧ t.isClosed = true) ∨ ∃ content flag, s = t.dressed content flag) :
    Agree server size later s t ↔ Lasts server size later t := by
  by_cases closed : t.isClosed = true
  · have first : s.isClosed = true := by
      rcases related with ⟨first,-⟩ | ⟨content,flag,rfl⟩
      · exact first
      · exact closed
    rw [agree_charged (closed_step server first _) (.inl ⟨first,closed⟩)]
    exact ⟨fun behind => ⟨fun opened => by simp [closed] at opened,behind⟩,Lasts.behind⟩
  · have second : t.isClosed = false := by simpa using closed
    obtain ⟨content,flag,rfl⟩ := related.resolve_left fun both => closed both.2
    have opened : (t.dressed content flag).isClosed = false := second
    have stepped := heard_written server opened 0 size
    cases held : t.response with
    | none =>
      have absent : (t.dressed content flag).response = none := held
      have bare : t.charged size = t := by
        unfold charged
        rw [held]
        cases t
        cases held
        rfl
      rw [onWrite_absent absent] at stepped
      rw [agree_charged stepped (.inr ⟨content,flag,by rw [bare]⟩)]
      exact ⟨fun behind => ⟨fun _ r found => by simp [held] at found,behind⟩,Lasts.behind⟩
    | some r =>
      have found : (t.dressed content flag).response = some r := held
      rw [onWrite_success opened found] at stepped
      by_cases goesOn : r.continueFlag = true ∨ size < r.remainBytes
      · have stays : (r.continueFlag || decide (r.remainBytes-size > 0)) = true := by
          rcases goesOn with announced | more
          · simp [announced]
          · simp only [Bool.or_eq_true,decide_eq_true_eq]
            omega
        rw [if_pos stays] at stepped
        have related : Charged size {t.dressed content flag with
            response:=some {r with remainBytes:=r.remainBytes-size},continueFlag:=r.continueFlag} t := by
          refine .inr ⟨content,r.continueFlag,?_⟩
          unfold charged dressed
          rw [held]
          rfl
        rw [agree_charged stepped related]
        refine ⟨fun behind => ⟨?_,behind⟩,Lasts.behind⟩
        rintro _ q isHeld announced
        cases held.symm.trans isHeld
        exact goesOn.resolve_left (by simp [announced])
      · obtain ⟨announced,short⟩ := not_or.mp goesOn
        have stops : ¬ (r.continueFlag || decide (r.remainBytes-size > 0)) = true := by
          simp only [Bool.or_eq_true,decide_eq_true_eq,not_or]
          exact ⟨announced,by omega⟩
        rw [if_neg stops] at stepped
        constructor
        · rintro ⟨next,again,-⟩
          cases stepped.symm.trans again
        · rintro ⟨first,-⟩
          exact absurd (first second r held (by simpa using announced)) short

-- An answer that went out in two writes, and their completions: it outlasts what
-- is shorter than the second of them.
theorem lasts_answer (server : Handlers HttpHandle) (opened : t.isClosed = false) (held : t.response = some r)
    (announced : r.continueFlag = false) (header body : Nat) (counts : r.remainBytes = header+body) (filled : 0 < body) :
    Lasts server size [.written 0 header,.written 0 body] t ↔ size < body := by
  have first := heard_written server opened 0 header
  have goesOn : (r.continueFlag || decide (r.remainBytes-header > 0)) = true := by
    simp only [Bool.or_eq_true,decide_eq_true_eq]
    omega
  rw [onWrite_success opened held,if_pos goesOn] at first
  generalize left : ({t with
    response:=some {r with remainBytes:=r.remainBytes-header},continueFlag:=r.continueFlag} : HttpSession) = middle at first
  have stillOpen : middle.isClosed = false := by rw [← left]; exact opened
  have second := heard_written server stillOpen 0 body
  have outlasts : Outlasts server size t [.written 0 header,.written 0 body] ↔
      Spared size t (.written 0 header) ∧ Spared size middle (.written 0 body) ∧ True := by
    rw [outlasts_cons first,outlasts_cons second,Outlasts]
  have secondSpared : Spared size middle (.written 0 body) := by
    intro _ _ q found _
    rw [← left] at found
    cases found
    left
    dsimp only
    omega
  constructor
  · rintro ⟨-,behind⟩
    rcases (outlasts.mp behind).1 rfl opened r held announced with none | enough
    · omega
    · omega
  · intro enough
    refine ⟨?_,outlasts.mpr ⟨?_,secondSpared,trivial⟩⟩
    · rintro _ q found -
      cases held.symm.trans found
      omega
    · rintro _ _ q found -
      cases held.symm.trans found
      omega

end HttpSession
end CoStream
