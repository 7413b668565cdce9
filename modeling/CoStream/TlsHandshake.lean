import CoStream.SslServer

namespace CoStream
open Foundation

namespace SslServer
variable {δ σ : Type}

def Established (outputs : List SslOutput) : Prop := ∃ r1, .handshake 1 r1 ∈ outputs

def Honest (_ : List (Call δ)) (outputs : List SslOutput) (s : SslServer σ) : Prop :=
  s.tlsState = .keyExchangeDone ∨ s.tlsState = .dataRecvState → Established outputs

-- OpenSSL took the data and wants more of the client's flight; the memory BIOs
-- could be cleared.
def WantsRead (library : OpenSsl δ σ) (ssl : σ) (data : δ) : Prop :=
  let written := library.bioWrite data ssl
  let answered := library.doHandshake written.2
  let reset := resetInput library answered.2
  0 < written.1 ∧ answered.1 = (-1,.wantRead) ∧ reset.1 = true ∧ (library.resetOut reset.2).1 = 1

-- A key exchange flight that comes in parts is read on only after a handshake
-- that is done.
def WholeFlight (library : OpenSsl δ σ) (outputs : List SslOutput) (s : SslServer σ) (call : Call δ) : Prop :=
  ∀ data, call = .handshake data → s.tlsState = .helloDone → WantsRead library s.ssl data → Established outputs

variable (library : OpenSsl δ σ) {s next : SslServer σ}

theorem Established.before (established : Established earlier) : Established (earlier++later) := by
  obtain ⟨r1,present⟩ := established
  exact ⟨r1,List.mem_append_left _ present⟩

theorem Established.behind (established : Established later) : Established (earlier++later) := by
  obtain ⟨r1,present⟩ := established
  exact ⟨r1,List.mem_append_right _ present⟩

theorem handleTlsHello_state (s : SslServer σ) (data : δ) :
    (handleTlsHello library s data).2.1.tlsState = s.tlsState := by
  unfold handleTlsHello
  dsimp only
  repeat' split
  all_goals rfl

-- What a call of HandleKeyExchange can come to.
inductive Exchanged (library : OpenSsl δ σ) (s : SslServer σ) (data : δ) : SslServer σ → List SslOutput → Prop where
  | refused (unasked : ¬ WantsRead library s.ssl data) (left : σ) (outputs : List SslOutput) :
      Exchanged library s data {s with ssl:=left} outputs
  | done (unasked : ¬ WantsRead library s.ssl data) (left : σ) (sent : List UInt8) :
      Exchanged library s data ⟨left,.keyExchangeDone⟩ [.handshake 1 .none,.plaintextDataSend sent]
  | partly (asked : WantsRead library s.ssl data) (left : σ) (sent : List UInt8) :
      Exchanged library s data ⟨left,.keyExchangeDone⟩ [.handshake (-1) .wantRead,.plaintextDataSend sent]

theorem finish_exact (s : SslServer σ) (r0 : Int) (r1 : SslError) (sent : List UInt8) :
    (handleKeyExchange.finish library s r0 r1 sent).2 =
      (⟨(library.resetOut s.ssl).2,if (library.resetOut s.ssl).1 = 1 then .keyExchangeDone else s.tlsState⟩,
        [.handshake r0 r1,.plaintextDataSend sent]) := by
  unfold handleKeyExchange.finish flush
  by_cases reset : (library.resetOut s.ssl).1 = 1
  · simp [reset]
  · simp [reset]

theorem handleKeyExchange_exact (s : SslServer σ) (data : δ) :
    Exchanged library s data (handleKeyExchange library s data).2.1 (handleKeyExchange library s data).2.2 := by
  cases written : library.bioWrite data s.ssl with
  | mk took ssl =>
  cases answered : library.doHandshake ssl with
  | mk answer ssl =>
  obtain ⟨r0,r1⟩ := answer
  cases cleared : resetInput library ssl with
  | mk reset emptied =>
  have asked : WantsRead library s.ssl data ↔
      0 < took ∧ (r0 = -1 ∧ r1 = .wantRead) ∧ reset = true ∧ (library.resetOut emptied).1 = 1 := by
    simp [WantsRead,written,answered,cleared]
  simp only [handleKeyExchange,written,answered,cleared]
  split
  case isTrue none => exact .refused (fun wants => by have := (asked.mp wants).1; omega) _ _
  case isFalse some =>
  split
  case isTrue complete =>
    obtain ⟨rfl,rfl⟩ := complete
    have unasked : ¬ WantsRead library s.ssl data := fun wants => absurd (asked.mp wants).2.1.1 (by decide)
    split
    · exact .refused unasked _ _
    · rw [finish_exact]
      split
      · exact .done unasked _ _
      · exact .refused unasked _ _
  case isFalse incomplete =>
  split
  case isTrue failed =>
    refine .refused (fun wants => ?_) _ _
    rcases failed with different | different
    · exact different (asked.mp wants).2.1.1
    · exact different (asked.mp wants).2.1.2
  case isFalse waiting =>
    obtain ⟨rfl,rfl⟩ : r0 = -1 ∧ r1 = .wantRead := by simpa using waiting
    split
    case isTrue stuck => exact .refused (fun wants => absurd (asked.mp wants).2.2.1 (by simp [stuck])) _ _
    case isFalse emptiedIn =>
      rw [finish_exact]
      dsimp only
      split
      case isTrue emptiedOut => exact .partly (asked.mpr ⟨by omega,⟨rfl,rfl⟩,by simpa using emptiedIn,emptiedOut⟩) _ _
      case isFalse kept => exact .refused (fun wants => kept (asked.mp wants).2.2.2) _ _

theorem sslInit_late (late : s.tlsState ≠ .zero) : sslInit library s = .ok (0,s) := by
  apply if_pos
  cases state : s.tlsState with
  | zero => exact absurd state late
  | _ => decide

theorem sslInit_first (zero : s.tlsState = .zero) (initialized : sslInit library s = .ok (ret,next)) :
    ret ≠ 0 ∧ next.tlsState = .zero ∨ ret = 0 ∧ next.tlsState = .initDone := by
  unfold sslInit at initialized
  rw [if_neg (by rw [zero]; decide)] at initialized
  dsimp only at initialized
  split at initialized
  · cases initialized
  · split at initialized
    case isTrue failed =>
      cases initialized
      exact .inl ⟨failed,zero⟩
    case isFalse =>
      cases initialized
      exact .inr ⟨rfl,rfl⟩

theorem handleFlight_hello (initDone : s.tlsState = .initDone) (data : δ) :
    (handleFlight library s data).2.1.tlsState.rank < TlsServerState.keyExchangeDone.rank := by
  simp only [handleFlight,initDone]
  split
  · rw [handleTlsHello_state,initDone]
    exact Nat.lt_succ_of_lt (Nat.lt_succ_self 1)
  · exact Nat.lt_succ_self 2

theorem handshake_late (data : δ) (late : s.tlsState ≠ .zero) : ∃ result, handshake library s data = .ok result := by
  unfold handshake
  split
  · exact ⟨_,rfl⟩
  · rw [sslInit_late library late]
    exact ⟨_,rfl⟩

-- Only HandleKeyExchange leads out of the early states.
theorem handshake_exact (handled : handshake library s data = .ok (ret,next,outputs)) :
    s.tlsState ≠ .helloDone ∧ (next = s ∨ next.tlsState.rank < TlsServerState.keyExchangeDone.rank) ∨
    s.tlsState = .helloDone ∧ Exchanged library s data next outputs := by
  unfold handshake at handled
  cases state : s.tlsState with
  | zero =>
    refine .inl ⟨by decide,.inr ?_⟩
    rw [if_neg (by rw [state]; decide)] at handled
    obtain ⟨⟨answer,ready⟩,first,handled⟩ := bind_ok.mp handled
    rcases sslInit_first library state first with ⟨failed,zero⟩ | ⟨rfl,initDone⟩
    · simp only [if_pos failed,pure_ok] at handled
      cases handled
      rw [zero]
      decide
    · have early := handleFlight_hello library initDone data
      rw [show handleFlight library ready data = _ from Except.ok.inj handled] at early
      exact early
  | initDone =>
    refine .inl ⟨by decide,.inr ?_⟩
    rw [if_neg (by rw [state]; decide),sslInit_late library (by rw [state]; decide),ok_bind] at handled
    have early := handleFlight_hello library state data
    rw [show handleFlight library s data = _ from Except.ok.inj handled] at early
    exact early
  | helloDone =>
    refine .inr ⟨rfl,?_⟩
    rw [if_neg (by rw [state]; decide),sslInit_late library (by rw [state]; decide),ok_bind] at handled
    have flight : handleFlight library s data = (ret,next,outputs) := Except.ok.inj handled
    simp only [handleFlight,state] at flight
    have exchanged := handleKeyExchange_exact library s data
    rw [flight] at exchanged
    exact exchanged
  | keyExchangeDone =>
    rw [if_pos (by rw [state])] at handled
    cases handled
    exact .inl ⟨by decide,.inl rfl⟩
  | dataRecvState =>
    rw [if_pos (by rw [state]; decide)] at handled
    cases handled
    exact .inl ⟨by decide,.inl rfl⟩

theorem handleSslDataRecv_state (s : SslServer σ) (data : δ) :
    (handleSslDataRecv library s data).2.1.tlsState = s.tlsState ∨
      s.tlsState = .keyExchangeDone ∧ (handleSslDataRecv library s data).2.1.tlsState = .dataRecvState := by
  unfold handleSslDataRecv
  split
  · exact .inl rfl
  · split
    case isTrue done => exact .inr ⟨done,rfl⟩
    case isFalse =>
      dsimp only
      repeat' split
      all_goals exact .inl rfl

theorem early_honest (early : s.tlsState.rank < TlsServerState.keyExchangeDone.rank) : Honest calls outputs s := by
  rintro (late | late)
  · rw [late] at early
    exact absurd early (by decide)
  · rw [late] at early
    exact absurd early (by decide)

theorem honest_preserved (honest : Honest calls outputs s) (whole : WholeFlight library outputs s call)
    (stepped : step library s call = .ok (next,emitted)) : Honest (calls++[call]) (outputs++emitted) next := by
  cases call with
  | handshake data =>
    obtain ⟨⟨ret,result⟩,handled,shape⟩ := map_ok.mp stepped
    cases shape
    rcases handshake_exact library handled with ⟨-,rfl | early⟩ | ⟨hello,exchanged⟩
    · exact fun late => (honest late).before
    · exact early_honest early
    · intro late
      cases exchanged with
      | refused unasked left outputs =>
        rw [hello] at late
        exact absurd late (by decide)
      | done unasked left sent => exact Established.behind ⟨.none,List.mem_cons_self⟩
      | partly asked left sent => exact (whole data rfl hello asked).before
  | handleSslDataRecv data =>
    obtain ⟨rfl,rfl⟩ := Prod.mk.inj (Except.ok.inj stepped)
    rcases handleSslDataRecv_state library s data with same | ⟨done,-⟩
    · intro late
      rw [same] at late
      exact (honest late).before
    · exact fun _ => (honest (.inl done)).before

theorem whole_forced (stepped : step library s call = .ok (next,emitted))
    (honest : Honest (calls++[call]) (outputs++emitted) next) : WholeFlight library outputs s call := by
  rintro data rfl hello asked
  obtain ⟨⟨ret,result⟩,handled,shape⟩ := map_ok.mp stepped
  cases shape
  rcases handshake_exact library handled with ⟨other,-⟩ | ⟨-,exchanged⟩
  · exact absurd hello other
  · cases exchanged with
    | refused unasked left outputs => exact absurd asked unasked
    | done unasked left sent => exact absurd asked unasked
    | partly _ left sent =>
      obtain ⟨r1,present⟩ := honest (.inl rfl)
      exact ⟨r1,by simpa using present⟩

-- The state tells the truth about the handshake in exactly the runs in which
-- no key exchange flight comes in parts.
theorem state_honest_exactly (ssl : σ) (calls : List (Call δ)) :
    (machine library {ssl}).Throughout Honest calls ↔
      (machine library {ssl}).Guarded (WholeFlight library) calls := by
  apply Machine.throughout_iff _ (fun _ => True) (WholeFlight library) Honest Honest
  · exact fun _ _ _ => trivial
  · exact early_honest (s := {ssl}) (Nat.succ_pos 2)
  · exact fun _ _ _ _ _ _ _ => honest_preserved library
  · exact fun _ _ _ => id
  · exact fun _ _ _ _ _ _ _ _ => whole_forced library
  · rintro events outputs s call fault - honest failed data rfl hello
    obtain ⟨result,handled⟩ := handshake_late (s := s) library data (by rw [hello]; decide)
    simp [machine,step,handled,Except.map] at failed
  · trivial

-- An OpenSSL that gives the listed answers, each with the bytes it leaves in
-- the output BIO.
structure Script where
  answers : List ((Int × SslError) × List UInt8)
  out : List UInt8 := []
deriving DecidableEq,Repr

def scripted : OpenSsl (List UInt8) Script where
  setCipherList script := (1,script)
  setup _ script := (true,script)
  bioWrite data script := (data.length,script)
  doHandshake script :=
    match script.answers with
    | [] => ((-1,.wantRead),script)
    | (answer,flight)::answers => (answer,{answers,out:=script.out++flight})
  memData := Script.out
  resetIn script := (1,script)
  resetOut script := (1,{script with out:=[]})
  read _ script := (.failed (-1) .wantRead,script)

-- A client hello, then the first byte of the key exchange flight.
theorem state_dishonest : ¬ ∀ (answers : List ((Int × SslError) × List UInt8)) (reads : List (List UInt8)),
    (machine scripted {ssl:={answers}}).Throughout Honest
      (reads.flatMap fun data => [.handshake data,.handleSslDataRecv data]) := by
  intro always
  have honest := always [((-1,.wantRead),[22]),((-1,.wantRead),[])] [[22],[22]] _ []
    ⟨⟨[],[]⟩,.dataRecvState⟩ [.handshake (-1) .wantRead,.plaintextDataSend [22],.handshake (-1) .wantRead,
      .plaintextDataSend []] (List.append_nil _).symm (by decide)
  obtain ⟨r1,present⟩ := honest (.inr rfl)
  simp at present

end SslServer

namespace TcpSession
variable {δ σ : Type} (library : OpenSsl δ σ)

-- A session hands its server nothing but calls of the two functions.
theorem onRead_calls {t next : TcpSession σ} (read : onRead library t data = .ok (next,outputs)) (start : SslServer σ) :
    ∃ calls, (SslServer.machine library start).runFrom t.ssl calls = .ok (next.ssl,outputs) := by
  unfold onRead at read
  split at read
  · cases read
    exact ⟨[],rfl⟩
  · obtain ⟨⟨ret,ssl,emitted⟩,handled,read⟩ := bind_ok.mp read
    have first : SslServer.step library t.ssl (.handshake data) = .ok (ssl,emitted) := by
      rw [SslServer.step,handled]
      rfl
    dsimp only at read
    split at read
    · cases read
      refine ⟨[.handshake data],(Machine.runFrom_cons _).mpr ⟨_,_,_,first,rfl,?_⟩⟩
      simp
    · cases read
      refine ⟨[.handshake data,.handleSslDataRecv data],(Machine.runFrom_cons _).mpr ⟨_,_,_,first,?_,rfl⟩⟩
      refine (Machine.runFrom_cons _).mpr ⟨_,_,_,rfl,rfl,?_⟩
      simp

theorem run_calls {t next : TcpSession σ} (ran : (machine library t).run reads = .ok (next,outputs)) :
    ∃ calls, (SslServer.machine library t.ssl).run calls = .ok (next.ssl,outputs) := by
  refine (machine library t).history (fun _ outputs next =>
    ∃ calls, (SslServer.machine library t.ssl).run calls = .ok (next.ssl,outputs)) ⟨[],rfl⟩ ?_ ran
  rintro reads outputs s data next emitted ⟨calls,earlier⟩ read
  obtain ⟨later,calledOn⟩ := onRead_calls library read t.ssl
  exact ⟨calls++later,(Machine.runFrom_append _).mpr ⟨_,_,_,earlier,calledOn,rfl⟩⟩

end TcpSession
end CoStream
