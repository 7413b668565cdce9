import CoStream.MediaStatics

namespace CoStream.MediaStatics
open Foundation

-- What the time of a packet makes of the reference: it is set anew, or it ends a
-- window that is reported.
def Resets (t : Track) (interval currentTs : Int) : Prop :=
  t.lastTs < 0 ∨ currentTs < t.lastTs ∧ t.lastTs-currentTs > interval
def distance (t : Track) (currentTs : Int) : Int :=
  if currentTs > t.lastTs then currentTs-t.lastTs else t.lastTs-currentTs
def Reports (t : Track) (interval currentTs : Int) : Prop := ¬ Resets t interval currentTs ∧ distance t currentTs ≥ interval

instance : Decidable (Resets t interval currentTs) := inferInstanceAs (Decidable (_ ∨ _))
instance : Decidable (Reports t interval currentTs) := inferInstanceAs (Decidable (_ ∧ _))

-- What there is to know of the packets of a track: the lengths of those that no
-- report has counted, the lengths from the one on that set the reference, and
-- whether that one came behind others that were waiting.
structure Ghost where
  waiting : List Nat := []
  since : List Nat := []
  overtaken : Bool := false
deriving DecidableEq,Repr

def Ghost.note (g : Ghost) (t : Track) (interval currentTs : Int) (dataLen : Nat) : Ghost :=
  if Resets t interval currentTs then ⟨g.waiting++[dataLen],[dataLen],decide (t.frames ≠ t.lastFrames)⟩
  else if Reports t interval currentTs then ⟨[],[dataLen],false⟩
  else ⟨g.waiting++[dataLen],g.since++[dataLen],g.overtaken⟩

-- The counts of a report are those of packets that end the history and do not
-- begin before the reference; neither divisor is zero.
structure OwnWindow (report : Report) (since : List Nat) : Prop where
  divisors : report.diffT ≠ 0 ∧ report.diffT.tdiv 1000 ≠ 0
  counts : ∃ older counted, since = older++counted ∧ report.frames = counted.length ∧ report.bytes = counted.sum

theorem checked_ok : checked x = .ok y ↔ FitsInt64 x ∧ x = y := by
  unfold checked
  split <;> simp_all

theorem checked_divides : checked x ≠ .error .divisionByZero := by
  unfold checked
  split <;> simp

theorem checkedInt_divides : checkedInt x ≠ .error .divisionByZero := by
  unfold checkedInt
  split <;> simp

theorem divide_positive (positive : 0 < y) : divide x y ≠ .error .divisionByZero := by
  unfold divide
  rw [if_neg (by omega)]
  exact checked_divides

theorem ok_divides {a : α} : (.ok a : Except Stop α) ≠ .error .divisionByZero := fun never => by cases never

section track
variable {t counted next : Track} {interval currentTs : Int} {dataLen : Nat} {g : Ghost} {report : Option Report}

theorem count_ok : t.count dataLen = .ok counted ↔
    FitsInt64 (t.frames+1) ∧ counted = {t with bytes:=toInt64 (t.bytes+dataLen),frames:=t.frames+1} := by
  unfold Track.count
  rw [bind_ok]
  simp only [checked_ok]
  constructor
  · rintro ⟨frames,⟨fits,rfl⟩,same⟩
    exact ⟨fits,(Except.ok.inj same).symm⟩
  · rintro ⟨fits,rfl⟩
    exact ⟨_,⟨fits,rfl⟩,rfl⟩

theorem jumpsBack_ok : t.jumpsBack interval currentTs = .ok back →
    (back = true ↔ currentTs < t.lastTs ∧ t.lastTs-currentTs > interval) := by
  unfold Track.jumpsBack
  intro ran
  split at ran
  · rename_i earlier
    obtain ⟨gap,measured,same⟩ := bind_ok.mp ran
    obtain ⟨-,rfl⟩ := checked_ok.mp measured
    rw [← Except.ok.inj same,decide_eq_true_eq]
    exact ⟨fun far => ⟨earlier,far⟩,And.right⟩
  · rename_i later
    rw [← Except.ok.inj ran]
    exact iff_of_false (by simp) fun both => later both.1

-- What HandleVideo and HandleAudio do behind the counting: set the reference,
-- report a window, or neither.
theorem measure_cases (ran : t.measure interval currentTs = .ok (next,report)) :
    (Resets t interval currentTs ∧ next = {t with lastTs:=currentTs} ∧ report = none) ∨
    (Reports t interval currentTs ∧ FitsInt64 (t.bytes-t.lastBytes) ∧
      report = some ⟨t.bytes-t.lastBytes,t.frames-t.lastFrames,distance t currentTs⟩ ∧
      ∃ kbitsSec framesSec, next =
        {t with kbitsSec,framesSec,lastBytes:=t.bytes,lastFrames:=t.frames,lastTs:=currentTs}) ∨
    (¬ Resets t interval currentTs ∧ ¬ Reports t interval currentTs ∧ next = t ∧ report = none) := by
  unfold Track.measure at ran
  by_cases negative : t.lastTs < 0
  · rw [if_pos negative] at ran
    obtain ⟨rfl,rfl⟩ := ok_pair ran
    exact .inl ⟨.inl negative,rfl,rfl⟩
  · rw [if_neg negative] at ran
    obtain ⟨back,jumped,behind⟩ := bind_ok.mp ran
    have jumps := jumpsBack_ok jumped
    by_cases resets : back = true
    · rw [if_pos resets] at behind
      obtain ⟨rfl,rfl⟩ := ok_pair behind
      exact .inl ⟨.inr (jumps.mp resets),rfl,rfl⟩
    · rw [if_neg resets] at behind
      have steady : ¬ Resets t interval currentTs := by
        rintro (below | far)
        · exact negative below
        · exact resets (jumps.mpr far)
      obtain ⟨diffT,measured,rest⟩ := bind_ok.mp behind
      obtain ⟨-,rfl⟩ := checked_ok.mp measured
      by_cases due : distance t currentTs ≥ interval
      · rw [distance] at due
        rw [if_pos due] at rest
        obtain ⟨bytes,first,rest⟩ := bind_ok.mp rest
        obtain ⟨fits,rfl⟩ := checked_ok.mp first
        obtain ⟨frames,second,rest⟩ := bind_ok.mp rest
        obtain ⟨-,rfl⟩ := checked_ok.mp second
        obtain ⟨bits,-,rest⟩ := bind_ok.mp rest
        obtain ⟨kbitsSec,-,rest⟩ := bind_ok.mp rest
        obtain ⟨framesSec,-,rest⟩ := bind_ok.mp rest
        obtain ⟨rfl,rfl⟩ := ok_pair rest
        exact .inr (.inl ⟨⟨steady,due⟩,fits,rfl,kbitsSec,framesSec,rfl⟩)
      · have early := due
        rw [distance] at early
        rw [if_neg early] at rest
        obtain ⟨rfl,rfl⟩ := ok_pair rest
        exact .inr (.inr ⟨steady,fun reports => due reports.2,rfl,rfl⟩)

theorem distance_long (wide : 2000 ≤ interval) (reports : Reports t interval currentTs) :
    distance t currentTs ≠ 0 ∧ (distance t currentTs).tdiv 1000 ≠ 0 := by
  have long := reports.2
  refine ⟨by omega,?_⟩
  rw [Int.tdiv_eq_ediv_of_nonneg (by omega)]
  omega

theorem jumpsBack_divides : t.jumpsBack interval currentTs ≠ .error .divisionByZero := by
  unfold Track.jumpsBack
  split
  · exact bind_avoids checked_divides fun gap _ => ok_divides
  · exact ok_divides

-- An interval is two seconds at least, and a window that is reported no shorter.
theorem measure_divides (wide : 2000 ≤ interval) : t.measure interval currentTs ≠ .error .divisionByZero := by
  unfold Track.measure
  split
  · exact ok_divides
  · refine bind_avoids jumpsBack_divides fun back _ => ?_
    split
    · exact ok_divides
    · refine bind_avoids checked_divides fun diffT _ => ?_
      split
      · rename_i due
        have seconds : 0 < diffT.tdiv 1000 := by
          rw [Int.tdiv_eq_ediv_of_nonneg (by omega)]
          omega
        refine bind_avoids checked_divides fun bytes _ => ?_
        refine bind_avoids checked_divides fun frames _ => ?_
        refine bind_avoids checked_divides fun bits _ => ?_
        refine bind_avoids (divide_positive (by omega)) fun kbitsSec _ => ?_
        exact bind_avoids (divide_positive seconds) fun framesSec _ => ok_divides
      · exact ok_divides

-- The ghost agrees with the fields. Byte counts do so up to the bits that their
-- sums have lost.
structure Followed (t : Track) (g : Ghost) : Prop where
  frames : t.frames-t.lastFrames = g.waiting.length
  bytes : ∃ lost : Int, t.bytes-t.lastBytes = g.waiting.sum+lost*2^64
  inOrder : g.overtaken = false → ∃ older, g.since = older++g.waiting
  overtaken : g.overtaken = true → g.since.length < g.waiting.length

theorem followed_initial : Followed {} {} := ⟨rfl,⟨0,rfl⟩,fun _ => ⟨[],rfl⟩,fun never => by cases never⟩

theorem toInt64_loses (x : Int) : ∃ lost : Int, toInt64 x = x+lost*2^64 := by
  refine ⟨-x.bdiv (2^64),?_⟩
  have whole := Int.bmod_add_bdiv x (2^64)
  unfold toInt64
  omega

theorem waiting_frames (followed : Followed t g) (added : t.count dataLen = .ok counted) :
    counted.frames-counted.lastFrames = (g.waiting++[dataLen]).length := by
  obtain ⟨-,rfl⟩ := count_ok.mp added
  have frames := followed.frames
  rw [List.length_append,List.length_singleton]
  dsimp only
  omega

theorem waiting_bytes (followed : Followed t g) (added : t.count dataLen = .ok counted) :
    ∃ lost : Int, counted.bytes-counted.lastBytes = (g.waiting++[dataLen]).sum+lost*2^64 := by
  obtain ⟨-,rfl⟩ := count_ok.mp added
  obtain ⟨before,bytes⟩ := followed.bytes
  obtain ⟨now,sum⟩ := toInt64_loses (t.bytes+dataLen)
  refine ⟨before+now,?_⟩
  rw [List.sum_append,List.sum_singleton]
  dsimp only
  omega

theorem followed_step (followed : Followed t g) (added : t.count dataLen = .ok counted)
    (measured : counted.measure interval currentTs = .ok (next,report)) :
    Followed next (g.note t interval currentTs dataLen) := by
  have frames := waiting_frames followed added
  have bytes := waiting_bytes followed added
  have before := followed.frames
  obtain ⟨-,same⟩ := count_ok.mp added
  have resetsSame : Resets counted interval currentTs ↔ Resets t interval currentTs := by rw [same]; rfl
  have reportsSame : Reports counted interval currentTs ↔ Reports t interval currentTs := by rw [same]; rfl
  unfold Ghost.note
  rcases measure_cases measured with ⟨resets,rfl,-⟩ | ⟨reports,-,-,kbitsSec,framesSec,rfl⟩ | ⟨steady,early,rfl,-⟩
  · rw [if_pos (resetsSame.mp resets)]
    refine ⟨frames,bytes,fun alone => ?_,fun others => ?_⟩
    · have none : t.frames = t.lastFrames := by simpa using alone
      have empty : g.waiting = [] := List.length_eq_zero_iff.mp (by omega)
      exact ⟨[],by rw [empty]; rfl⟩
    · have some_ : t.frames ≠ t.lastFrames := by simpa using others
      dsimp only
      rw [List.length_append,List.length_singleton]
      omega
  · rw [if_neg fun resets => reports.1 (resetsSame.mpr resets),if_pos (reportsSame.mp reports)]
    exact ⟨Int.sub_self _,⟨0,by simp⟩,fun _ => ⟨[dataLen],rfl⟩,fun never => by cases never⟩
  · rw [if_neg fun resets => steady (resetsSame.mpr resets),if_neg fun reports => early (reportsSame.mpr reports)]
    refine ⟨frames,bytes,fun kept => ?_,fun others => ?_⟩
    · obtain ⟨older,since⟩ := followed.inOrder kept
      exact ⟨older,by dsimp only; rw [since,List.append_assoc]⟩
    · have longer := followed.overtaken others
      dsimp only
      rw [List.length_append,List.length_append]
      omega

-- A report counts the packets that are waiting and the one that brings it. Both
-- lists end with that packet, so the longer one has the other at its end.
theorem report_own (followed : Followed t g) (added : t.count dataLen = .ok counted) {made : Report}
    (measured : counted.measure interval currentTs = .ok (next,some made)) (wide : 2000 ≤ interval) :
    Reports t interval currentTs ∧
      (OwnWindow made (g.since++[dataLen]) ↔ g.overtaken = false ∧ (g.waiting++[dataLen]).sum < 2^63) := by
  have frames := waiting_frames followed added
  obtain ⟨lost,bytes⟩ := waiting_bytes followed added
  obtain ⟨-,same⟩ := count_ok.mp added
  rcases measure_cases measured with ⟨-,-,never⟩ | ⟨reports,fits,shape,-⟩ | ⟨-,-,-,never⟩
  · cases never
  · obtain rfl := Option.some.inj shape
    refine ⟨by rw [same] at reports; exact reports,?_⟩
    constructor
    · rintro ⟨-,older,window,since,count,sum⟩
      have size : window.length = (g.waiting++[dataLen]).length := by
        dsimp only at count
        omega
      have kept : g.overtaken = false := by
        cases flag : g.overtaken with
        | false => rfl
        | true =>
          have longer := followed.overtaken flag
          have whole := congrArg List.length since
          rw [List.length_append,List.length_append] at whole
          rw [List.length_append] at size
          omega
      obtain ⟨earlier,inOrder⟩ := followed.inOrder kept
      rw [inOrder,List.append_assoc] at since
      obtain ⟨-,rfl⟩ := List.append_inj' since size.symm
      refine ⟨kept,?_⟩
      have high := fits.2
      dsimp only at sum
      omega
    · rintro ⟨kept,small⟩
      obtain ⟨earlier,inOrder⟩ := followed.inOrder kept
      refine ⟨distance_long wide reports,earlier,g.waiting++[dataLen],by rw [inOrder,List.append_assoc],frames,?_⟩
      have low := fits.1
      have high := fits.2
      dsimp only
      omega
  · cases never

theorem measure_reports (reports : Reports t interval currentTs) (ran : t.measure interval currentTs = .ok (next,report)) :
    ∃ made, report = some made := by
  rcases measure_cases ran with ⟨resets,-,-⟩ | ⟨-,-,rfl,-⟩ | ⟨-,early,-,-⟩
  · exact absurd resets reports.1
  · exact ⟨_,rfl⟩
  · exact absurd reports early

theorem track_own (followed : Followed t g) (added : t.count dataLen = .ok counted)
    (measured : counted.measure interval currentTs = .ok (next,report)) (wide : 2000 ≤ interval) :
    (∀ made, report = some made → OwnWindow made (g.since++[dataLen])) ↔
      (Reports t interval currentTs → g.overtaken = false ∧ (g.waiting++[dataLen]).sum < 2^63) := by
  constructor
  · intro own reports
    obtain ⟨-,same⟩ := count_ok.mp added
    obtain ⟨made,rfl⟩ := measure_reports (t := counted) (by rw [same]; exact reports) measured
    exact (report_own followed added measured wide).2.mp (own made rfl)
  · rintro met made rfl
    obtain ⟨reports,exactly⟩ := report_own followed added measured wide
    exact exactly.mpr (met reports)

end track

-- One MediaStatics and the packets it is given; what comes out are its reports.
def machine (interval : Int) : Machine Stats Input Report Stop :=
  ⟨create interval,fun s input => (inputPacket s input).map fun result => (result.1,result.2.toList)⟩

structure Ghosts where
  video : Ghost := {}
  audio : Ghost := {}
deriving DecidableEq,Repr

-- The track that a packet belongs to.
def concerned (s : Stats) (g : Ghosts) (input : Input) : Option (Track × Ghost × MediaPacket) :=
  match input.pkt with
  | none => none
  | some pkt =>
    match pkt.avType with
    | .video => some (s.video,g.video,pkt)
    | .audio => some (s.audio,g.audio,pkt)
    | _ => none

def note (s : Stats) (g : Ghosts) (input : Input) : Ghosts :=
  match input.pkt with
  | none => g
  | some pkt =>
    match pkt.avType with
    | .video => {g with video:=g.video.note s.video s.interval (input.currentTs pkt) pkt.dataLen}
    | .audio => {g with audio:=g.audio.note s.audio s.interval (input.currentTs pkt) pkt.dataLen}
    | _ => g

def sinceReference (s : Stats) (g : Ghosts) (input : Input) : List Nat :=
  match concerned s g input with
  | none => []
  | some (_,ghost,pkt) => ghost.since++[pkt.dataLen]

-- The same machine, with each report next to the packets from the reference on.
def watched (interval : Int) : Machine (Stats × Ghosts) Input (Report × List Nat) Stop :=
  ((machine interval).recording note {}).observe fun state input emitted =>
    emitted.map fun report => (report,sinceReference state.1 state.2 input)

-- A packet that brings a report does not come behind one that has set the
-- reference while others were waiting, and the bytes that wait fit 63 bits.
def InOrder (s : Stats) (g : Ghosts) (input : Input) : Prop :=
  ∀ t ghost pkt, concerned s g input = some (t,ghost,pkt) → (∃ result, inputPacket s input = .ok result) →
    Reports t s.interval (input.currentTs pkt) → ghost.overtaken = false ∧ (ghost.waiting++[pkt.dataLen]).sum < 2^63

structure Steady (s : Stats) (g : Ghosts) : Prop where
  wide : 2000 ≤ s.interval
  video : Followed s.video g.video
  audio : Followed s.audio g.audio

section packet
variable {s next : Stats} {g : Ghosts} {input : Input} {report : Option Report}

theorem handleVideo_ok (ran : handleVideo s pkt currentTs = .ok (next,report)) : ∃ counted,
    s.video.count pkt.dataLen = .ok counted ∧ counted.measure s.interval currentTs = .ok (next.video,report) ∧
      next.audio = s.audio ∧ next.interval = s.interval := by
  obtain ⟨counted,added,rest⟩ := bind_ok.mp ran
  obtain ⟨gopFrames,-,rest⟩ := bind_ok.mp rest
  obtain ⟨measured,second,rest⟩ := bind_ok.mp rest
  obtain ⟨rfl,rfl⟩ := ok_pair rest
  exact ⟨counted,added,second,rfl,rfl⟩

theorem handleAudio_ok (ran : handleAudio s pkt currentTs = .ok (next,report)) : ∃ counted,
    s.audio.count pkt.dataLen = .ok counted ∧ counted.measure s.interval currentTs = .ok (next.audio,report) ∧
      next.video = s.video ∧ next.interval = s.interval := by
  obtain ⟨counted,added,rest⟩ := bind_ok.mp ran
  obtain ⟨measured,second,rest⟩ := bind_ok.mp rest
  obtain ⟨rfl,rfl⟩ := ok_pair rest
  exact ⟨counted,added,second,rfl,rfl⟩

theorem steady_initial (interval : Int) : Steady (create interval) {} := by
  refine ⟨?_,followed_initial,followed_initial⟩
  unfold create defInterval
  dsimp only
  split <;> omega

inductive Handled (s : Stats) (g : Ghosts) (input : Input) : Prop where
  | idle (nothing : concerned s g input = none) (kept : note s g input = g) (silent : inputPacket s input = .ok (s,none))
  | video (pkt : MediaPacket) (given : concerned s g input = some (s.video,g.video,pkt))
      (noted : note s g input = {g with video:=g.video.note s.video s.interval (input.currentTs pkt) pkt.dataLen})
      (handled : inputPacket s input = handleVideo s pkt (input.currentTs pkt))
  | audio (pkt : MediaPacket) (given : concerned s g input = some (s.audio,g.audio,pkt))
      (noted : note s g input = {g with audio:=g.audio.note s.audio s.interval (input.currentTs pkt) pkt.dataLen})
      (handled : inputPacket s input = handleAudio s pkt (input.currentTs pkt))

-- What InputPacket passes on, by the kind of packet.
theorem handled (s : Stats) (g : Ghosts) (input : Input) : Handled s g input := by
  cases arrived : input.pkt with
  | none => exact .idle (by simp [concerned,arrived]) (by simp [note,arrived]) (by simp [inputPacket,arrived])
  | some pkt =>
    cases kind : pkt.avType with
    | video =>
      exact .video pkt (by simp [concerned,arrived,kind]) (by simp [note,arrived,kind]) (by simp [inputPacket,arrived,kind])
    | audio =>
      exact .audio pkt (by simp [concerned,arrived,kind]) (by simp [note,arrived,kind]) (by simp [inputPacket,arrived,kind])
    | unknown | movbox | metadata =>
      exact .idle (by simp [concerned,arrived,kind]) (by simp [note,arrived,kind]) (by simp [inputPacket,arrived,kind])

theorem inOrder_given (given : concerned s g input = some (t,ghost,pkt)) (ran : inputPacket s input = .ok (next,report)) :
    InOrder s g input ↔ (Reports t s.interval (input.currentTs pkt) →
      ghost.overtaken = false ∧ (ghost.waiting++[pkt.dataLen]).sum < 2^63) := by
  constructor
  · intro order
    exact order t ghost pkt given ⟨_,ran⟩
  · intro order t' ghost' pkt' given' defined
    obtain ⟨rfl,rest⟩ := Prod.mk.inj (Option.some.inj (given.symm.trans given'))
    obtain ⟨rfl,rfl⟩ := Prod.mk.inj rest
    exact order

theorem sinceReference_given (given : concerned s g input = some (t,ghost,pkt)) :
    sinceReference s g input = ghost.since++[pkt.dataLen] := by
  unfold sinceReference
  rw [given]

-- One packet: both ghosts go along, and its report is right exactly in order.
theorem packet_step (steady : Steady s g) (ran : inputPacket s input = .ok (next,report)) :
    Steady next (note s g input) ∧
      ((∀ made, report = some made → OwnWindow made (sinceReference s g input)) ↔ InOrder s g input) := by
  have ⟨wide,video,audio⟩ := steady
  rcases handled s g input with ⟨nothing,kept,silent⟩ | ⟨pkt,given,noted,passed⟩ | ⟨pkt,given,noted,passed⟩
  · obtain ⟨rfl,rfl⟩ := ok_pair (silent.symm.trans ran).symm
    refine ⟨by rw [kept]; exact steady,iff_of_true (fun made never => by cases never) ?_⟩
    intro t ghost pkt given
    cases nothing.symm.trans given
  · obtain ⟨counted,added,measured,other,same⟩ := handleVideo_ok (passed.symm.trans ran)
    rw [noted,inOrder_given given ran,sinceReference_given given]
    refine ⟨⟨by rw [same]; exact wide,followed_step video added measured,by rw [other]; exact audio⟩,?_⟩
    exact track_own video added measured wide
  · obtain ⟨counted,added,measured,other,same⟩ := handleAudio_ok (passed.symm.trans ran)
    rw [noted,inOrder_given given ran,sinceReference_given given]
    refine ⟨⟨by rw [same]; exact wide,by rw [other]; exact video,followed_step audio added measured⟩,?_⟩
    exact track_own audio added measured wide

theorem count_divides (t : Track) (dataLen : Nat) : t.count dataLen ≠ .error .divisionByZero :=
  bind_avoids checked_divides fun _ _ => ok_divides

theorem packet_divides (wide : 2000 ≤ s.interval) (input : Input) : inputPacket s input ≠ .error .divisionByZero := by
  rcases handled s {} input with ⟨-,-,silent⟩ | ⟨pkt,-,-,passed⟩ | ⟨pkt,-,-,passed⟩
  · rw [silent]
    exact ok_divides
  · rw [passed]
    refine bind_avoids (count_divides _ _) fun counted _ => ?_
    refine bind_avoids checkedInt_divides fun gopFrames _ => ?_
    exact bind_avoids (measure_divides wide) fun measured _ => ok_divides
  · rw [passed]
    refine bind_avoids (count_divides _ _) fun counted _ => ?_
    exact bind_avoids (measure_divides wide) fun measured _ => ok_divides

end packet

section run
variable {interval : Int}

theorem watched_step {next : Stats × Ghosts} {seen : List (Report × List Nat)}
    (stepped : (watched interval).step state input = .ok (next,seen)) :
    ∃ report, inputPacket state.1 input = .ok (next.1,report) ∧ next.2 = note state.1 state.2 input ∧
      seen = report.toList.map fun made => (made,sinceReference state.1 state.2 input) := by
  obtain ⟨emitted,recorded,rfl⟩ := ((machine interval).recording note {}).observe_step.mp stepped
  obtain ⟨passed,noted⟩ := (machine interval).recording_step.mp recorded
  obtain ⟨⟨reached,report⟩,handled,same⟩ := map_ok.mp passed
  obtain ⟨rfl,rfl⟩ := Prod.mk.inj same
  exact ⟨report,handled,noted,rfl⟩

theorem watched_defined (interval : Int) {state : Stats × Ghosts} (ran : inputPacket state.1 input = .ok result) :
    ∃ stepped, (watched interval).step state input = .ok stepped := by
  unfold watched Machine.observe Machine.recording machine
  dsimp only
  rw [ran]
  exact ⟨_,rfl⟩

-- Watching neither adds a run nor loses one.
theorem watched_run (ran : (machine interval).run inputs = .ok (s,reports)) :
    ∃ ghosts seen, (watched interval).run inputs = .ok ((s,ghosts),seen) ∧ seen.map Prod.fst = reports := by
  have recorded : ∃ kept, ((machine interval).recording note ({} : Ghosts)).run inputs = .ok ((s,kept),reports) :=
    (machine interval).recording_run.mp ran
  obtain ⟨ghosts,whole⟩ := recorded
  have observed : ∃ seen, (watched interval).run inputs = .ok ((s,ghosts),seen) ∧ seen.map Prod.fst = reports := by
    apply ((machine interval).recording note {}).observe_run (List.map Prod.fst) id rfl
    · exact fun one two => List.map_append
    · exact fun one two => rfl
    · intro state input emitted
      rw [List.map_map]
      exact List.map_id _
    · exact whole
  exact ⟨ghosts,observed⟩

-- Every report is about its own window, and no packet divides by zero.
def OwnWindows (_ : List Input) (seen : List (Report × List Nat)) (state : Stats × Ghosts) : Prop :=
  (∀ shown ∈ seen, OwnWindow shown.1 shown.2) ∧ ∀ input, inputPacket state.1 input ≠ .error .divisionByZero

theorem ownWindows_iff (interval : Int) (inputs : List Input) : (watched interval).Throughout OwnWindows inputs ↔
    (watched interval).Guarded (fun _ state input => InOrder state.1 state.2 input) inputs := by
  apply (watched interval).throughout_iff (fun _ => True) _
    (fun inputs seen state => Steady state.1 state.2 ∧ OwnWindows inputs seen state) OwnWindows (fun _ _ _ => trivial)
  · have steady := steady_initial interval
    exact ⟨steady,fun shown never => (List.not_mem_nil never).elim,packet_divides steady.wide⟩
  · rintro events seen state input next emitted - ⟨steady,own,-⟩ order stepped
    obtain ⟨report,ran,noted,rfl⟩ := watched_step stepped
    obtain ⟨after,exactly⟩ := packet_step steady ran
    rw [← noted] at after
    refine ⟨after,fun shown member => ?_,packet_divides after.wide⟩
    rcases List.mem_append.mp member with earlier | now
    · exact own shown earlier
    · obtain ⟨made,present,rfl⟩ := List.mem_map.mp now
      exact exactly.mpr order made (Option.mem_toList.mp present)
  · exact fun _ _ _ held => held.2
  · rintro events seen state input next emitted - ⟨steady,-⟩ stepped ⟨own,-⟩
    obtain ⟨report,ran,-,rfl⟩ := watched_step stepped
    refine (packet_step steady ran).2.mp fun made present => ?_
    subst present
    exact own (made,sinceReference state.1 state.2 input) (List.mem_append_right _ (by simp))
  · rintro events seen state input fault - - failed t ghost pkt - ⟨result,ran⟩
    obtain ⟨stepped,goesOn⟩ := watched_defined interval ran
    cases failed.symm.trans goesOn
  · trivial

end run

-- The clock is put back by five seconds while two packets are waiting.
def clockBack : List Input :=
  [10000,10500,5000,7000].map fun now => {pkt:=some {avType:=.video,dataLen:=10},now}

theorem clockBack_mixes : (∃ s, (watched 2000).run clockBack = .ok (s,[(⟨40,4,2000⟩,[10,10])])) ∧
    ¬ (watched 2000).Throughout OwnWindows clockBack := by
  have ran : ∃ s, (watched 2000).run clockBack = .ok (s,[(⟨40,4,2000⟩,[10,10])]) := ⟨_,rfl⟩
  refine ⟨ran,fun throughout => ?_⟩
  obtain ⟨s,reached⟩ := ran
  obtain ⟨-,older,window,since,count,-⟩ := (throughout clockBack [] s _ (List.append_nil _).symm reached).1 _ List.mem_cons_self
  have size := congrArg List.length since
  rw [List.length_append] at size
  simp only [List.length_cons,List.length_nil] at size
  dsimp only at count
  omega

end CoStream.MediaStatics
