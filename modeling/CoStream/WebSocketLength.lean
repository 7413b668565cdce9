import CoStream.WebSocketStream

namespace CoStream.WebSocketSessionBase
open Foundation
open WebSocketFrame (Pending parse_bad)

variable {s next : WebSocketSessionBase} {input data : List UInt8}

-- The run is defined: no signed overflow, no access outside the buffered
-- bytes, no loop without end. And whatever Parse accepts lies in the buffer,
-- with two bytes or more for each pass to take off.
def LengthSafe (reads : List Read) : Prop :=
  ∃ final actions, machine.run reads = .ok (final,actions) ∧ ∀ action ∈ actions, Sound action

-- More steps than the loop needs change nothing, so the steps that `handleFrame`
-- gives it bound the model and not the code.
theorem loop_more (nowMs : Int) (fuel more : Nat) (looped : loop nowMs fuel s data = .ok result) :
    loop nowMs (fuel+more) s data = .ok result := by
  induction fuel generalizing s data result with
  | zero => cases looped
  | succ fuel ih =>
    rw [Nat.add_right_comm]
    unfold loop at looped ⊢
    obtain ⟨⟨next,actions,left⟩,passed,goes⟩ := bind_ok.mp looped
    rw [passed,ok_bind]
    cases left with
    | some ret => exact goes
    | none =>
      dsimp only at goes ⊢
      split at goes
      · rename_i filled
        obtain ⟨⟨final,later,ret⟩,continued,ends⟩ := bind_ok.mp goes
        rw [if_pos filled,ih continued,ok_bind]
        exact ends
      · rename_i empty
        rw [if_neg empty]
        exact goes

theorem takeFrame_parsed (taken : takeFrame nowMs s = .ok (next,actions,left)) : .parsed s.frame ∈ actions := by
  obtain ⟨ready,_,goes⟩ := bind_ok.mp taken
  split at goes
  · obtain ⟨payload,_,goes⟩ := bind_ok.mp goes
    obtain ⟨len,_,goes⟩ := bind_ok.mp goes
    simp only [Except.ok.injEq,Prod.mk.injEq] at goes
    obtain ⟨-,rfl,-⟩ := goes
    exact List.mem_cons_self
  · cases goes
    exact List.mem_cons_self

-- A header that announces too much is caught at once: the pass faults or shows
-- a frame with a negative length.
theorem pass_bad (pending : Pending s.frame) (short : (s.frame.buffer++data).length < 2^31)
    (found : Header.read? (s.frame.buffer++data) = some h) (large : 2^63 ≤ h.start+h.len)
    (passed : pass nowMs s data = .ok (next,actions,left)) : ∃ action ∈ actions, ¬ Sound action := by
  obtain ⟨⟨frame,ret⟩,parsed,goes⟩ := bind_ok.mp passed
  rcases parse_bad pending short found large with ⟨fault,failed⟩ | ⟨other,accepted,negative⟩
  · rw [failed] at parsed
    cases parsed
  · rw [accepted] at parsed
    cases parsed
    dsimp only at goes
    rw [if_neg (by decide)] at goes
    refine ⟨_,takeFrame_parsed goes,?_⟩
    simp only [Sound,Inside]
    omega

theorem framesBelow_nil : FramesBelow [] := by
  intro place h reached found
  cases reached with
  | here => cases found
  | step next _ =>
    rw [frameDecoder.next_nil] at next
    cases next

theorem framesBelow_cons (good : ∀ h, Header.read? input = some h → h.start+h.len < 2^63)
    (later : ∀ frame rest, nextFrame input = some (frame,rest) → FramesBelow rest) : FramesBelow input := by
  intro place h reached found
  cases reached with
  | here => exact good h found
  | step next reached => exact later _ _ next place h reached found

theorem loop_below (fuel : Nat) (pending : Pending s.frame) (short : (s.frame.buffer++data).length < 2^31)
    (looped : loop nowMs fuel s data = .ok (next,actions,ret)) (sound : ∀ action ∈ actions, Sound action) :
    FramesBelow (s.frame.buffer++data) := by
  induction fuel generalizing s data actions with
  | zero => cases looped
  | succ fuel ih =>
    unfold loop at looped
    obtain ⟨⟨middle,early,left⟩,passed,goes⟩ := bind_ok.mp looped
    -- Whichever way the pass ends, its actions are among those of the loop.
    have among : ∀ action ∈ early, Sound action := by
      intro action member
      refine sound action ?_
      cases left with
      | some ret =>
        cases goes
        exact member
      | none =>
        dsimp only at goes
        split at goes
        · obtain ⟨⟨final,later,ret⟩,_,ends⟩ := bind_ok.mp goes
          cases ends
          exact List.mem_append_left _ member
        · cases goes
          exact member
    have good : ∀ h, Header.read? (s.frame.buffer++data) = some h → h.start+h.len < 2^63 := by
      intro h found
      by_contra large
      obtain ⟨action,member,unsound⟩ := pass_bad pending short found (by omega) passed
      exact unsound (among action member)
    refine framesBelow_cons good fun frame rest first => ?_
    rcases pass_good nowMs pending data good with
      ⟨next,waits,kept,still,assembled,unfound⟩ |
      ⟨next,parsed,taken,place,takes,found,shorter,inside,at_,still,assembled⟩
    · rw [unfound short] at first
      cases first
    · rw [found] at first
      cases first
      rw [passed] at takes
      cases takes
      dsimp only at goes
      split at goes
      · obtain ⟨⟨final,later,ret⟩,continued,ends⟩ := bind_ok.mp goes
        cases ends
        have again : middle.frame.buffer++[] = rest := by rw [at_,List.append_nil]
        have below : FramesBelow (middle.frame.buffer++[]) := ih still (by rw [again]; omega) continued
          fun action member => sound action (List.mem_append_right _ member)
        rwa [again] at below
      · rename_i empty
        have nothing : rest = [] := by
          rw [at_] at empty
          exact List.length_eq_zero_iff.mp (by omega)
        rw [nothing]
        exact framesBelow_nil

theorem step_below (pending : Pending s.frame) (read : Read) (short : s.frame.buffer.length+read.data.length < 2^31)
    (stepped : step s read = .ok (next,actions)) (sound : ∀ action ∈ actions, Sound action) :
    FramesBelow (s.frame.buffer++read.data) := by
  obtain ⟨⟨final,emitted,ret⟩,looped,ends⟩ := bind_ok.mp stepped
  cases ends
  exact loop_below _ pending (by rwa [List.length_append]) looped sound

theorem run_below (reads : List Read) (live : LiveBelow reads) (safe : LengthSafe reads) :
    FramesBelow (stream reads) := by
  induction reads using List.reverseRecOn with
  | nil => exact framesBelow_nil
  | append_singleton before read ih =>
    obtain ⟨final,actions,ran,sound⟩ := safe
    obtain ⟨middle,earlier,emitted,front,stepped,rfl⟩ := machine.runFrom_snoc.mp ran
    have frontBelow := ih (liveBelow_front [read] live)
      ⟨middle,earlier,front,fun action member => sound action (List.mem_append_left _ member)⟩
    obtain ⟨same,actions,again,_,pending,_,drained⟩ := run_good before frontBelow
    have equal : (same,actions) = (middle,earlier) := Except.ok.inj (again.symm.trans front)
    cases equal
    have below := step_below pending read (live before read [] _ _ rfl front) stepped
      fun action member => sound action (List.mem_append_right _ member)
    rw [(drained (liveBelow_front [read] live)).1] at below
    rw [stream_append,stream_single]
    intro place h reached found
    rcases reached.split with ⟨start,frame,rest,walked,taken,rfl⟩ | behind
    · obtain ⟨other,header,_⟩ := nextFrame_some.mp taken
      rw [Header.read?_append header read.data] at found
      cases found
      exact frontBelow start _ walked header
    · exact below place h behind found

-- Headers below 2^63 make every run safe, however the stream is cut. As long as
-- the buffer stays in `int`, no other header does.
theorem lengthSafe_iff (reads : List Read) :
    (FramesBelow (stream reads) → LengthSafe reads) ∧
      (LiveBelow reads → LengthSafe reads → FramesBelow (stream reads)) := by
  refine ⟨fun below => ?_,run_below reads⟩
  obtain ⟨final,actions,ran,sound,-⟩ := run_good reads below
  exact ⟨final,actions,ran,sound⟩

-- Ten bytes of an unmasked text frame that announces 2^64-1 bytes.
def hugeLength : Read := ⟨0,[0x81,0x7f,0xff,0xff,0xff,0xff,0xff,0xff,0xff,0xff]⟩

theorem hugeLength_unsafe : (WebSocketFrame.parse {} hugeLength.data).toOption.map (fun parsed =>
      (parsed.1.payloadStart,parsed.1.payloadLen,parsed.2)) = some (10,-1,0) ∧
    machine.run [hugeLength] = .error .outOfBounds ∧ ¬ LengthSafe [hugeLength] := by
  have faults : machine.run [hugeLength] = .error .outOfBounds := by rfl
  refine ⟨by decide,faults,?_⟩
  rintro ⟨final,actions,ran,-⟩
  rw [faults] at ran
  cases ran

end CoStream.WebSocketSessionBase
