import CoStream.HttpDispatch

namespace CoStream
open Foundation
namespace HttpSession

-- What can be told of a session from outside: the requests it parses and hands
-- on, and what it writes.
inductive Note where
  | parsed (request : HttpRequest)
  | called (handler : HttpHandle) (request : HttpRequest)
  | wrote (data : Bytes)
  | closed

def noted : Output → Option Note
  | .handled handler request => some (.called handler request)
  | .wrote data => some (.wrote data)
  | .tryRead => none
  | .closed => some .closed

def shown (outputs : List Output) : List Note := outputs.filterMap noted
def notes (s : HttpSession) (event : Event) (outputs : List Output) : List Note :=
  (s.parsing event).toList.map .parsed++shown outputs
def heard (server : Handlers HttpHandle) : Machine HttpSession Event Note Exn := (machine server).observe notes

@[simp] theorem shown_append (first second : List Output) : shown (first++second) = shown first++shown second :=
  List.filterMap_append
@[simp] theorem shown_wrote (datas : List Bytes) : shown (datas.map .wrote) = datas.map .wrote := by
  induction datas with
  | nil => rfl
  | cons data rest ih => exact congrArg (Note.wrote data::·) ih

theorem respondAll_append (first second : List ResponseCall) (s : HttpSession) :
    s.respondAll (first++second) = (((s.respondAll first).1.respondAll second).1,
      (s.respondAll first).2++((s.respondAll first).1.respondAll second).2) := by
  induction first generalizing s with
  | nil => rfl
  | cons call rest ih =>
    rw [List.cons_append,respondAll,ih]
    simp [respondAll]

-- Neither the content nor the flag matters to what a response does.
def dressed (s : HttpSession) (contentData : Bytes) (continueFlag : Bool) : HttpSession :=
  {s with contentData,continueFlag}

theorem close_dressed (s : HttpSession) (content : Bytes) (flag : Bool) :
    (s.dressed content flag).close = (s.close.1.dressed content flag,s.close.2) := by
  unfold close dressed
  dsimp only
  split <;> rfl

theorem respond_dressed (call : ResponseCall) (s : HttpSession) (content : Bytes) (flag : Bool) :
    (s.dressed content flag).respond call = ((s.respond call).1.dressed content flag,(s.respond call).2) := by
  cases held : s.response with
  | none =>
    have bare : (s.dressed content flag).response = none := held
    unfold respond
    rw [held,bare]
  | some r =>
    have same : (s.dressed content flag).response = some r := held
    unfold respond
    rw [held,same]
    cases call with
    | close =>
      dsimp only
      split
      · rfl
      · exact close_dressed {s with response:=some (r.setClose true)} content flag
    | _ => rfl

theorem respondAll_dressed (given : List ResponseCall) (s : HttpSession) (content : Bytes) (flag : Bool) :
    (s.dressed content flag).respondAll given = ((s.respondAll given).1.dressed content flag,(s.respondAll given).2) := by
  induction given generalizing s with
  | nil => rfl
  | cons call rest ih =>
    unfold respondAll
    dsimp only
    rw [respond_dressed]
    dsimp only
    rw [ih]

variable {s t : HttpSession} {r q : HttpResponse}

-- A response that is closed says nothing.
theorem respond_shut (shut : s.response = some r ∧ r.isClose = true) (call : ResponseCall) :
    (s.respond call).2 = [] ∧ (s.respond call).1.isClosed = s.isClosed ∧
      ∃ q, (s.respond call).1.response = some q ∧ q.isClose = true := by
  obtain ⟨held,closed⟩ := shut
  unfold respond
  rw [held]
  cases call with
  | write data continueFlag =>
    have refused : r.write data continueFlag = ({r with continueFlag},[]) := by
      unfold HttpResponse.write
      rw [if_pos (by simp [closed])]
    dsimp only
    rw [refused]
    exact ⟨rfl,rfl,_,rfl,closed⟩
  | close =>
    dsimp only
    rw [if_pos closed]
    exact ⟨rfl,rfl,r,held,closed⟩
  | _ => exact ⟨rfl,rfl,_,rfl,closed⟩

theorem respondAll_shut (given : List ResponseCall) (s : HttpSession) (shut : ∃ r, s.response = some r ∧ r.isClose = true) :
    (s.respondAll given).2 = [] := by
  induction given generalizing s with
  | nil => rfl
  | cons call rest ih =>
    obtain ⟨r,shut⟩ := shut
    obtain ⟨silent,-,again⟩ := respond_shut shut call
    unfold respondAll
    dsimp only
    rw [silent,ih _ again]
    rfl

-- A response goes silent with its session.
def Tidy (s : HttpSession) : Prop := ∃ r, s.response = some r ∧ (s.isClosed = true → r.isClose = true)

-- Two sessions whose responses are open; the one of the second has not written
-- its header yet, or it has like the other one.
structure Twin (s t : HttpSession) (r q : HttpResponse) : Prop where
  held : s.response = some r ∧ t.response = some q
  opened : s.isClosed = false ∧ t.isClosed = false
  first : r.isClose = false ∧ r.attached = true
  second : q.isClose = false ∧ q.attached = true
  header : r.writtenHeader = true

theorem respond_close (held : s.response = some r) (opened : s.isClosed = false) (first : r.isClose = false) :
    (s.respond .close).2 = [.closed] ∧ (s.respond .close).1.response = some ((r.setClose true).setClose true) := by
  unfold respond
  rw [held]
  dsimp only
  rw [if_neg (by simp [first])]
  unfold close
  dsimp only
  rw [if_neg (by simp [opened])]
  exact ⟨rfl,rfl⟩

theorem write_header (first : r.isClose = false ∧ r.attached = true) (header : r.writtenHeader = true) (data : Bytes) (flag : Bool) :
    (r.write data flag).2 = (if data.length > 0 then [data] else []) ∧ (r.write data flag).1.writtenHeader = true ∧
      (r.write data flag).1.isClose = false ∧ (r.write data flag).1.attached = true := by
  unfold HttpResponse.write
  rw [if_neg (by simp [first.1,first.2]),if_pos header]
  exact ⟨rfl,rfl,first.1,first.2⟩

theorem write_first (second : q.isClose = false ∧ q.attached = true) (unwritten : q.writtenHeader = false) (data : Bytes) (flag : Bool) :
    (q.write data flag).2 = q.head data.length flag::(if data.length > 0 then [data] else []) ∧
      (q.write data flag).1.writtenHeader = true ∧ (q.write data flag).1.isClose = false ∧ (q.write data flag).1.attached = true := by
  unfold HttpResponse.write
  rw [if_neg (by simp [second.1,second.2]),if_neg (by simp [unwritten])]
  exact ⟨rfl,rfl,second.1,second.2⟩

theorem respond_write (held : s.response = some r) (data : Bytes) (flag : Bool) :
    s.respond (.write data flag) = ({s with response:=some (r.write data flag).1},(r.write data flag).2.map .wrote) := by
  unfold respond
  rw [held]

-- Calls that change the fields of a response, and nothing else.
theorem respond_field (held : s.response = some r) (call : ResponseCall) (field : ∀ data flag, call ≠ .write data flag)
    (stays : call ≠ .close) : ∃ changed, s.respond call = ({s with response:=some changed},[]) ∧
      changed.isClose = r.isClose ∧ changed.attached = r.attached ∧ changed.writtenHeader = r.writtenHeader := by
  unfold respond
  rw [held]
  cases call with
  | write data flag => exact absurd rfl (field data flag)
  | close => exact absurd rfl stays
  | _ => exact ⟨_,rfl,rfl,rfl,rfl⟩

theorem respond_tidy (tidy : Tidy s) (call : ResponseCall) : Tidy (s.respond call).1 := by
  obtain ⟨r,held,shut⟩ := tidy
  cases closed : r.isClose with
  | true =>
    obtain ⟨-,-,q,again,still⟩ := respond_shut ⟨held,closed⟩ call
    exact ⟨q,again,fun _ => still⟩
  | false =>
    have opened : s.isClosed = false := Bool.eq_false_iff.mpr fun both => by simp [shut both] at closed
    cases kind : call with
    | close =>
      obtain ⟨-,again⟩ := respond_close held opened closed
      exact ⟨_,again,fun _ => rfl⟩
    | write data flag =>
      rw [respond_write held]
      exact ⟨_,rfl,fun both => by simp [opened] at both⟩
    | _ =>
      obtain ⟨changed,answered,-⟩ := respond_field held call (by simp [kind]) (by simp [kind])
      rw [← kind,answered]
      exact ⟨changed,rfl,fun both => by simp [opened] at both⟩

theorem respondAll_tidy (given : List ResponseCall) (tidy : Tidy s) : Tidy (s.respondAll given).1 := by
  induction given generalizing s with
  | nil => exact tidy
  | cons call rest ih => exact ih (respond_tidy tidy call)

theorem closed_step (server : Handlers HttpHandle) (closed : s.isClosed = true) (event : Event) :
    (heard server).step s event = .ok (s,[]) := by
  have stepped : step server s event = .ok (s,[]) := if_pos closed
  refine (machine server).observe_step.mpr ⟨[],stepped,?_⟩
  unfold notes
  rw [parsing_skips (.inl closed)]
  rfl

theorem heard_closed (server : Handlers HttpHandle) (closed : s.isClosed = true) (events : List Event) :
    (heard server).runFrom s events = .ok (s,[]) := by
  induction events with
  | nil => rfl
  | cons event rest ih => exact (heard server).runFrom_cons.mpr ⟨s,[],[],closed_step server closed event,ih,rfl⟩

theorem step_respond (server : Handlers HttpHandle) (isOpen : s.isClosed = false) (call : ResponseCall) :
    step server s (.respond call) = .ok (s.respond call) := if_neg (by simp [isOpen])

-- Calls on a response that was kept do what they do in the handler, until one
-- closes the session.
theorem heard_later (server : Handlers HttpHandle) (later : List ResponseCall) (tidy : Tidy s) :
    ∃ final, (heard server).runFrom s (later.map .respond) = .ok (final,shown (s.respondAll later).2) ∧
      (final.isClosed = true ∧ (s.respondAll later).1.isClosed = true ∨ final = (s.respondAll later).1) := by
  induction later generalizing s with
  | nil => exact ⟨s,rfl,.inr rfl⟩
  | cons call rest ih =>
    cases closed : s.isClosed with
    | true =>
      obtain ⟨r,held,shut⟩ := tidy
      rw [respondAll_shut _ s ⟨r,held,shut closed⟩]
      exact ⟨s,heard_closed server closed _,.inl ⟨closed,respondAll_closed _ closed⟩⟩
    | false =>
      obtain ⟨final,continued,reached⟩ := ih (respond_tidy tidy call)
      have stepped := step_respond server closed call
      refine ⟨final,(heard server).runFrom_cons.mpr ⟨_,_,_,(machine server).observe_step.mpr ⟨_,stepped,rfl⟩,continued,?_⟩,reached⟩
      rw [respondAll,shown_append]
      rfl

-- A close ends both in the same way.
theorem Twin.close (twin : Twin s t r q) (rest : List ResponseCall) :
    (s.respond .close).2++((s.respond .close).1.respondAll rest).2 =
      (t.respond .close).2++((t.respond .close).1.respondAll rest).2 := by
  obtain ⟨⟨heldFirst,heldSecond⟩,opened,first,second,header⟩ := twin
  obtain ⟨saidFirst,shutFirst⟩ := respond_close heldFirst opened.1 first.1
  obtain ⟨saidSecond,shutSecond⟩ := respond_close heldSecond opened.2 second.1
  rw [saidFirst,saidSecond,respondAll_shut rest _ ⟨_,shutFirst,rfl⟩,respondAll_shut rest _ ⟨_,shutSecond,rfl⟩]

theorem Twin.field (twin : Twin s t r q) (call : ResponseCall) (field : ∀ data flag, call ≠ .write data flag)
    (stays : call ≠ .close) : ∃ changed other, s.respond call = ({s with response:=some changed},[]) ∧
      t.respond call = ({t with response:=some other},[]) ∧ other.writtenHeader = q.writtenHeader ∧
      Twin {s with response:=some changed} {t with response:=some other} changed other := by
  obtain ⟨⟨heldFirst,heldSecond⟩,opened,first,second,header⟩ := twin
  obtain ⟨changed,saidFirst,shutFirst,attachedFirst,headerFirst⟩ := respond_field heldFirst call field stays
  obtain ⟨other,saidSecond,shutSecond,attachedSecond,headerSecond⟩ := respond_field heldSecond call field stays
  exact ⟨changed,other,saidFirst,saidSecond,headerSecond,⟨rfl,rfl⟩,opened,⟨shutFirst.trans first.1,attachedFirst.trans first.2⟩,
    ⟨shutSecond.trans second.1,attachedSecond.trans second.2⟩,headerFirst.trans header⟩

-- Both have written a header: they go on alike.
theorem respondAll_written (given : List ResponseCall) (twin : Twin s t r q) (written : q.writtenHeader = true) :
    (s.respondAll given).2 = (t.respondAll given).2 := by
  induction given generalizing s t r q with
  | nil => rfl
  | cons call rest ih =>
    unfold respondAll
    dsimp only
    cases kind : call with
    | close => exact twin.close rest
    | write data flag =>
      obtain ⟨⟨heldFirst,heldSecond⟩,opened,first,second,header⟩ := twin
      obtain ⟨wroteFirst,headerFirst,openFirst⟩ := write_header first header data flag
      obtain ⟨wroteSecond,headerSecond,openSecond⟩ := write_header second written data flag
      rw [respond_write heldFirst,respond_write heldSecond,wroteFirst,wroteSecond]
      exact congrArg _ (ih ⟨⟨rfl,rfl⟩,opened,openFirst,openSecond,headerFirst⟩ headerSecond)
    | _ =>
      obtain ⟨changed,other,saidFirst,saidSecond,same,again⟩ := twin.field call (by simp [kind]) (by simp [kind])
      rw [← kind,saidFirst,saidSecond]
      exact ih again (same.trans written)

-- Some call reaches the connection before the response is closed.
def writesNothing : List ResponseCall → Bool
  | [] => true
  | .write _ _::_ => false
  | .close::_ => true
  | _::rest => writesNothing rest

-- The response is closed before anything is written.
def closesFirst : List ResponseCall → Bool
  | [] => false
  | .write _ _::_ => false
  | .close::_ => true
  | _::rest => closesFirst rest

theorem closesFirst_quiet (given : List ResponseCall) (closes : closesFirst given = true) : writesNothing given = true := by
  induction given with
  | nil => cases closes
  | cons call rest ih =>
    cases call with
    | write data flag => cases closes
    | close => rfl
    | _ => exact ih closes

theorem respondAll_closes (given : List ResponseCall) (closes : closesFirst given = true) (held : s.response = some r)
    (opened : r.isClose = false) : (s.respondAll given).1.isClosed = true := by
  induction given generalizing s r with
  | nil => cases closes
  | cons call rest ih =>
    cases kind : call with
    | write data flag =>
      rw [kind] at closes
      cases closes
    | close =>
      have shut : (s.respond .close).1.isClosed = true := by
        unfold respond
        rw [held]
        dsimp only
        rw [if_neg (by simp [opened])]
        exact close_closed _
      exact respondAll_closed rest shut
    | _ =>
      obtain ⟨changed,answered,same,-⟩ := respond_field held call (by simp [kind]) (by simp [kind])
      rw [kind] at closes answered
      rw [respondAll,answered]
      exact ih closes rfl (same.trans opened)

-- Nothing is written and nothing closed: the fields are set, and that is all.
theorem respondAll_fields (given : List ResponseCall) (quiet : writesNothing given = true) (stays : closesFirst given = false)
    (held : s.response = some r) : ∃ changed, (s.respondAll given).1 = {s with response:=some changed} ∧
      changed.continueFlag = r.continueFlag ∧ changed.remainBytes = r.remainBytes := by
  induction given generalizing s r with
  | nil => exact ⟨r,by rw [respondAll,← held],rfl,rfl⟩
  | cons call rest ih =>
    rw [respondAll]
    unfold respond
    rw [held]
    cases call with
    | write data flag => cases quiet
    | close => cases stays
    | setStatusCode statusCode => exact ih (s:={s with response:=some {r with statusCode}}) (r:={r with statusCode}) quiet stays rfl
    | setStatus status => exact ih (s:={s with response:=some {r with status}}) (r:={r with status}) quiet stays rfl
    | addHeader key value => exact ih (s:={s with response:=some {r with headers:=r.headers.insert key value}}) (r:={r with headers:=r.headers.insert key value}) quiet stays rfl

-- The header that only the second has still to write makes the difference.
theorem respondAll_unwritten (given : List ResponseCall) (twin : Twin s t r q) (unwritten : q.writtenHeader = false) :
    (writesNothing given = true → (s.respondAll given).2 = (t.respondAll given).2) ∧
    (writesNothing given = false → (shown (t.respondAll given).2).length = (shown (s.respondAll given).2).length+1) := by
  induction given generalizing s t r q with
  | nil => exact ⟨fun _ => rfl,fun never => Bool.noConfusion never⟩
  | cons call rest ih =>
    unfold respondAll
    dsimp only
    cases kind : call with
    | close => exact ⟨fun _ => twin.close rest,fun never => Bool.noConfusion never⟩
    | write data flag =>
      obtain ⟨⟨heldFirst,heldSecond⟩,opened,first,second,header⟩ := twin
      obtain ⟨wroteFirst,headerFirst,openFirst⟩ := write_header first header data flag
      obtain ⟨wroteSecond,headerSecond,openSecond⟩ := write_first second unwritten data flag
      rw [respond_write heldFirst,respond_write heldSecond,wroteFirst,wroteSecond]
      have behind : ({s with response:=some (r.write data flag).1}.respondAll rest).2 =
          ({t with response:=some (q.write data flag).1}.respondAll rest).2 :=
        respondAll_written rest ⟨⟨rfl,rfl⟩,opened,openFirst,openSecond,headerFirst⟩ headerSecond
      refine ⟨fun never => Bool.noConfusion never,fun _ => ?_⟩
      dsimp only
      rw [behind]
      rw [shown_append,shown_append,shown_wrote,shown_wrote,List.map_cons,List.cons_append,List.length_cons]
    | _ =>
      obtain ⟨changed,other,saidFirst,saidSecond,same,again⟩ := twin.field call (by simp [kind]) (by simp [kind])
      rw [← kind,saidFirst,saidSecond]
      have continued := ih again (same.trans unwritten)
      rw [kind]
      exact continued

end HttpSession
end CoStream
