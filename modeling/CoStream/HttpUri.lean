import CoStream.HttpServer
import CoStream.Foundation.Trim

namespace CoStream
open Foundation

-- The searches of GetUri ask for no more than the first and the last letter.
theorem find?_head (c : UInt8) (text : Bytes) : find? [c] text = some 0 ↔ text.head? = some c := by
  cases text with
  | nil => simp [find?]
  | cons letter rest =>
    rw [find?,List.head?_cons,Option.some.injEq]
    by_cases same : c = letter
    · simp [same]
    · rw [if_neg (by simpa using same)]
      simp [Ne.symm same]

theorem rfind?_last (c : UInt8) (text : Bytes) :
    (∃ pos, rfind? [c] text = some pos ∧ pos+1 = text.length) ↔ text.getLast? = some c := by
  have mirrored := find?_head c text.reverse
  rw [List.head?_reverse] at mirrored
  rw [← mirrored]
  unfold rfind?
  rw [List.reverse_singleton]
  constructor
  · rintro ⟨pos,found,last⟩
    obtain ⟨fromEnd,first,rfl⟩ := Option.map_eq_some_iff.mp found
    have inside := (find?_inside first).1
    rw [List.length_reverse,List.length_singleton] at inside
    have atEnd : fromEnd = 0 := by
      rw [List.length_singleton] at last
      omega
    rw [first,atEnd]
  · intro first
    have inside := (find?_inside first).1
    rw [List.length_reverse,List.length_singleton] at inside
    refine ⟨text.length-0-[c].length,by rw [first]; rfl,?_⟩
    rw [List.length_singleton]
    omega

theorem getUri_trims (uri : Bytes) (other : uri ≠ ascii "/") : getUri uri = withoutBack 47 (withoutFront 47 uri) := by
  have front : (if find? (ascii "/") uri = some 0 then uri.drop 1 else uri) = withoutFront 47 uri := by
    unfold withoutFront
    have head : find? (ascii "/") uri = some 0 ↔ uri.head? = some 47 := find?_head 47 uri
    by_cases starts : uri.head? = some 47
    · rw [if_pos starts,if_pos (head.mpr starts),List.drop_one]
    · rw [if_neg starts,if_neg fun found => starts (head.mp found)]
  unfold getUri
  rw [if_neg other]
  dsimp only
  rw [front]
  have last := rfind?_last 47 (withoutFront 47 uri)
  unfold withoutBack
  cases found : rfind? (ascii "/") (withoutFront 47 uri) with
  | none =>
    have apart : (withoutFront 47 uri).getLast? ≠ some 47 := by
      intro ends
      obtain ⟨pos,somewhere,-⟩ := last.mpr ends
      exact absurd (found.symm.trans somewhere) (by simp)
    rw [if_neg apart]
  | some pos =>
    by_cases ends : pos+1 = (withoutFront 47 uri).length
    · rw [if_pos (last.mp ⟨pos,found,ends⟩)]
      dsimp only
      rw [if_pos ends,List.dropLast_eq_take]
      congr 1
      omega
    · have apart : (withoutFront 47 uri).getLast? ≠ some 47 := by
        intro atEnd
        obtain ⟨other,somewhere,behind⟩ := last.mpr atEnd
        cases found.symm.trans somewhere
        exact ends behind
      rw [if_neg apart]
      dsimp only
      rw [if_neg ends]

theorem getUri_keeps (uri : Bytes) : getUri uri = uri ↔ Trimmed 47 uri := by
  by_cases single : uri = ascii "/"
  · rw [single]
    exact iff_of_true rfl (.inl rfl)
  · rw [getUri_trims uri single,trimmed_iff]
    exact ⟨.inr,fun trimmed => trimmed.resolve_left single⟩

theorem getUri_settles (uri : Bytes) : getUri (getUri uri) = getUri uri ↔ Single 47 uri := by
  rw [getUri_keeps]
  by_cases single : uri = ascii "/"
  · rw [single]
    exact iff_of_true (.inl rfl) (by decide)
  · rw [getUri_trims uri single]
    exact trimmed_once single

-- Once settled, it stays so however often the request is dispatched.
theorem routed (settled : getUri (getUri uri) = getUri uri) (request : HttpRequest) (at_uri : request.uri = uri) (times : Nat) :
    HttpServer.route^[times+1] request = {request with uri:=getUri uri} := by
  induction times with
  | zero => rw [← at_uri]; rfl
  | succ times ih =>
    rw [Function.iterate_succ_apply',ih]
    unfold HttpServer.route
    dsimp only
    rw [settled]

-- A handler is found by every dispatch of a request for the uri it was
-- registered under, where no other was registered before.
def FoundAgain (uri : Bytes) : Prop :=
  ∀ (η : Type) (server : Handlers η) (handleFunc : η) (request : HttpRequest) (times : Nat), request.uri = uri →
    (request.method = ascii "GET" → server.getHandleMap[getUri uri]? = none →
      (HttpServer.getHandle (HttpServer.addGetHandle server uri handleFunc) (HttpServer.route^[times] request)).2 = some handleFunc) ∧
    (request.method = ascii "POST" → server.postHandleMap[getUri uri]? = none →
      (HttpServer.getHandle (HttpServer.addPostHandle server uri handleFunc) (HttpServer.route^[times] request)).2 = some handleFunc)

theorem insertIfNew_free (map : Std.ExtTreeMap Bytes η) (free : map[key]? = none) (value : η) :
    (map.insertIfNew key value)[key]? = some value := by
  rw [Std.ExtTreeMap.getElem?_insertIfNew]
  apply if_pos
  refine ⟨Std.ReflCmp.compare_self,?_⟩
  intro member
  rw [Std.ExtTreeMap.getElem?_eq_some_getElem member] at free
  cases free

theorem foundAgain_settled (settled : getUri (getUri uri) = getUri uri) : FoundAgain uri := by
  intro η server handleFunc request times at_uri
  have reached := routed settled request at_uri times
  rw [Function.iterate_succ_apply'] at reached
  unfold HttpServer.getHandle HttpServer.matched
  dsimp only
  rw [reached]
  constructor
  · intro get free
    rw [if_pos get]
    unfold HttpServer.addGetHandle
    dsimp only
    rw [insertIfNew_free _ free,Option.some_or]
  · intro post free
    have other : ¬ request.method = ascii "GET" := by
      rw [post]
      decide
    rw [if_neg other,if_pos post]
    unfold HttpServer.addPostHandle
    dsimp only
    rw [insertIfNew_free _ free,Option.some_or]

-- Where two slashes stand together at either end, GetUri takes off one more
-- whenever it is called.
theorem getUri_idempotent_iff (uri : Bytes) :
    (getUri (getUri uri) = getUri uri ∧ FoundAgain uri) ↔
      (¬ ascii "//" <+: uri ∧ ¬ ascii "//" <:+ uri) ∨ uri = ascii "//" ∨ uri = ascii "///" := by
  have settles : getUri (getUri uri) = getUri uri ↔ Single 47 uri := getUri_settles uri
  constructor
  · exact fun both => settles.mp both.1
  · intro single
    have settled := settles.mpr single
    exact ⟨settled,foundAgain_settled settled⟩

theorem doubleSlash_moves : getUri (ascii "//a") = ascii "/a" ∧ getUri (getUri (ascii "//a")) = ascii "a" ∧
    ¬ (getUri (getUri (ascii "//a")) = getUri (ascii "//a") ∧ FoundAgain (ascii "//a")) := by
  have once : getUri (ascii "//a") = ascii "/a" := by decide
  have twice : getUri (getUri (ascii "//a")) = ascii "a" := by decide
  refine ⟨once,twice,fun both => ?_⟩
  have same := both.1
  rw [twice,once] at same
  exact absurd same (by decide)

end CoStream
