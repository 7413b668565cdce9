import CoStream.HttpClientRequest

namespace CoStream
open Foundation

theorem atoi_fits (text : Bytes) : FitsInt (atoi text) := by
  unfold atoi
  dsimp only
  split <;> exact toInt_range _

theorem insertIfNew_lookup (headers : Headers) (name value key : Bytes) :
    (headers.insertIfNew name value)[key]? = headers[key]?.or (if key = name then some value else none) := by
  rw [Std.ExtTreeMap.getElem?_insertIfNew]
  by_cases same : key = name
  · subst same
    rw [if_pos rfl]
    by_cases present : key ∈ headers
    · rw [if_neg fun both => both.2 present]
      obtain ⟨held,found⟩ := Option.isSome_iff_exists.mp (Std.ExtTreeMap.mem_iff_isSome_getElem?.mp present)
      rw [found]
      rfl
    · rw [if_pos ⟨Std.LawfulEqOrd.compare_eq_iff_eq.mpr rfl,present⟩,Std.ExtTreeMap.getElem?_eq_none present]
      rfl
  · rw [if_neg fun both => same (Std.LawfulEqOrd.eq_of_compare both.1).symm,if_neg same,Option.or_none]

namespace HttpRequest
variable {request filled base fresh merged : HttpRequest} {headerStr : Bytes}

-- What it takes for a header block to be accepted.
theorem readHeader_accepts : request.readHeader headerStr = .ok (filled,true) ↔
    ∃ firstLine lines method target versionInfo uri params ret pos version,
      split crlf headerStr = firstLine::lines ∧ split (ascii " ") firstLine = [method,target,versionInfo] ∧
      getUriAndParams target request.params = .ok (uri,params,ret) ∧ ¬ ret < 0 ∧
      find? (ascii "HTTP") versionInfo = some pos ∧ substr versionInfo (pos+5) = .ok version ∧
      readLines {request with method,uri,params,version} lines = .ok (filled,true) := by
  unfold readHeader
  rw [stringSplit_exact,ok_bind]
  constructor
  · intro read
    split at read
    · cases read
    · rename_i firstLine lines block
      unfold readFirstLine at read
      rw [stringSplit_exact,ok_bind] at read
      split at read
      · rename_i method target versionInfo items
        unfold readTarget at read
        obtain ⟨⟨uri,params,ret⟩,cut,read⟩ := bind_ok.mp read
        dsimp only at read
        split at read
        · cases read
        · rename_i good
          unfold readVersion at read
          split at read
          · cases read
          · rename_i pos found
            obtain ⟨version,tail,read⟩ := bind_ok.mp read
            exact ⟨firstLine,lines,method,target,versionInfo,uri,params,ret,pos,version,block,items,cut,good,found,tail,read⟩
      · cases read
  · rintro ⟨firstLine,lines,method,target,versionInfo,uri,params,ret,pos,version,block,items,cut,good,found,tail,read⟩
    rw [block]
    dsimp only
    unfold readFirstLine
    rw [stringSplit_exact,ok_bind,items]
    dsimp only
    unfold readTarget
    dsimp only
    rw [cut,ok_bind]
    dsimp only
    rw [if_neg good]
    unfold readVersion
    rw [found]
    dsimp only
    rw [tail,ok_bind]
    exact read

theorem readLines_fits (lines : List Bytes) (fits : FitsInt request.contentLength)
    (read : request.readLines lines = .ok (filled,accepted)) : FitsInt filled.contentLength := by
  induction lines generalizing request with
  | nil =>
    cases read
    exact fits
  | cons infoLine rest ih =>
    unfold readLines at read
    split at read
    · cases read
      exact fits
    · obtain ⟨value,-,read⟩ := bind_ok.mp read
      refine ih ?_ read
      unfold addHeader
      dsimp only
      split
      · exact atoi_fits value
      · exact fits

-- Content-Length is an `int` whatever the header says.
theorem readHeader_fits (fits : FitsInt request.contentLength) (read : request.readHeader headerStr = .ok (filled,true)) :
    FitsInt filled.contentLength := by
  obtain ⟨_,lines,_,_,_,_,_,_,_,_,-,-,-,-,-,-,read⟩ := readHeader_accepts.mp read
  exact readLines_fits lines (by exact fits) read

theorem body_small (unset : request.contentLength = 0) (read : request.readHeader headerStr = .ok (filled,true))
    (body : Bytes) (length : filled.contentLength = body.length) : body.length < 2^31 := by
  have zero : FitsInt 0 := by decide +kernel
  have fits := readHeader_fits (by rw [unset]; exact zero) read
  rw [length] at fits
  have high := fits.2
  omega

-- A block that is read into a request which has been filled before: parameters
-- are overwritten, headers are not, and the old length stays if none is given.
structure Merged (base fresh merged : HttpRequest) : Prop where
  method : merged.method = fresh.method
  uri : merged.uri = fresh.uri
  version : merged.version = fresh.version
  params : ∀ key : Bytes, merged.params[key]? = fresh.params[key]?.or base.params[key]?
  headers : ∀ key : Bytes, merged.headers[key]? = base.headers[key]?.or fresh.headers[key]?
  given : fresh.headers[ascii "Content-Length"]? ≠ none → merged.contentLength = fresh.contentLength
  missing : fresh.headers[ascii "Content-Length"]? = none →
    merged.contentLength = base.contentLength ∧ fresh.contentLength = 0
  headerData : merged.headerData = base.headerData
  content : merged.content = base.content

theorem Merged.addHeader (merges : Merged base fresh merged) (name value : Bytes) :
    Merged base (fresh.addHeader name value) (merged.addHeader name value) := by
  refine ⟨merges.method,merges.uri,merges.version,merges.params,?_,?_,?_,merges.headerData,merges.content⟩
  · intro key
    unfold HttpRequest.addHeader
    dsimp only
    rw [insertIfNew_lookup,insertIfNew_lookup,merges.headers,Option.or_assoc]
  · unfold HttpRequest.addHeader
    dsimp only
    rw [insertIfNew_lookup]
    intro present
    split
    · rfl
    · rename_i other
      rw [if_neg fun same => other same.symm,Option.or_none] at present
      exact merges.given present
  · unfold HttpRequest.addHeader
    dsimp only
    rw [insertIfNew_lookup,Option.or_eq_none_iff]
    rintro ⟨absent,notNow⟩
    split
    · rename_i same
      rw [if_pos same.symm] at notNow
      cases notNow
    · exact merges.missing absent

theorem readLines_merged (lines : List Bytes) (merges : Merged base fresh merged)
    (read : fresh.readLines lines = .ok (filled,true)) :
    ∃ joined, merged.readLines lines = .ok (joined,true) ∧ Merged base filled joined := by
  induction lines generalizing fresh merged with
  | nil =>
    cases read
    exact ⟨merged,rfl,merges⟩
  | cons infoLine rest ih =>
    unfold readLines at read ⊢
    cases found : find? (ascii ":") infoLine with
    | none =>
      rw [found] at read
      cases read
    | some pos =>
      rw [found] at read
      dsimp only at read ⊢
      obtain ⟨value,cut,read⟩ := bind_ok.mp read
      rw [cut,ok_bind]
      exact ih (merges.addHeader _ _) read

theorem storeParams_merged (items : List Bytes) (params joined older : Headers)
    (merges : ∀ key : Bytes, joined[key]? = params[key]?.or older[key]?) (stored : storeParams params items = .ok (final,ret)) :
    ∃ last, storeParams joined items = .ok (last,ret) ∧ ∀ key : Bytes, last[key]? = final[key]?.or older[key]? := by
  induction items generalizing params joined with
  | nil =>
    cases stored
    exact ⟨joined,rfl,merges⟩
  | cons item rest ih =>
    unfold storeParams at stored ⊢
    rw [stringSplit_exact,ok_bind] at stored ⊢
    split at stored
    · refine ih _ _ (fun key => ?_) stored
      rw [insert_lookup,insert_lookup,merges]
      split <;> rfl
    · cases stored
      exact ⟨joined,rfl,merges⟩

theorem getUriAndParams_merged {uri : Bytes} {params : Headers} (target : Bytes) (older : Headers)
    (cut : getUriAndParams target (∅ : Headers) = .ok (uri,params,ret)) :
    ∃ joined, getUriAndParams target older = .ok (uri,joined,ret) ∧
      ∀ key : Bytes, joined[key]? = params[key]?.or older[key]? := by
  unfold getUriAndParams at cut ⊢
  cases found : find? (ascii "?") target with
  | none =>
    rw [found] at cut
    cases cut
    exact ⟨older,rfl,fun key => by simp⟩
  | some pos =>
    rw [found] at cut
    dsimp only at cut ⊢
    obtain ⟨paramStr,tail,cut⟩ := bind_ok.mp cut
    rw [stringSplit_exact,ok_bind] at cut
    obtain ⟨⟨final,flag⟩,stored,cut⟩ := bind_ok.mp cut
    cases cut
    obtain ⟨last,storedOver,merges⟩ := storeParams_merged _ ∅ older older (fun key => by simp) stored
    refine ⟨last,?_,merges⟩
    rw [tail,ok_bind,stringSplit_exact,ok_bind,storedOver,ok_bind]

theorem readHeader_merged (base : HttpRequest) (read : readHeader {} headerStr = .ok (fresh,true)) :
    ∃ merged, base.readHeader headerStr = .ok (merged,true) ∧ Merged base fresh merged := by
  obtain ⟨firstLine,lines,method,target,versionInfo,uri,params,ret,pos,version,block,items,cut,good,found,tail,read⟩ :=
    readHeader_accepts.mp read
  obtain ⟨joined,cutOver,merges⟩ := getUriAndParams_merged target base.params cut
  have start : Merged base {method,uri,params,version} {base with method,uri,params:=joined,version} :=
    ⟨rfl,rfl,rfl,merges,fun key => by simp,fun present => absurd (by simp) present,fun _ => ⟨rfl,rfl⟩,rfl,rfl⟩
  obtain ⟨merged,readOver,merges⟩ := readLines_merged lines start read
  exact ⟨merged,readHeader_accepts.mpr ⟨firstLine,lines,method,target,versionInfo,uri,joined,ret,pos,version,block,items,
    cutOver,good,found,tail,readOver⟩,merges⟩

-- The old request leaves no trace: what it held in its maps is what the new one
-- says itself, up to values of parameters.
structure Covers (base fresh : HttpRequest) : Prop where
  params : ∀ key : Bytes, base.params[key]? ≠ none → fresh.params[key]? ≠ none
  headers : ∀ key value : Bytes, base.headers[key]? = some value → fresh.headers[key]? = some value

theorem Merged.covers (merges : Merged base fresh fresh) : Covers base fresh := by
  constructor
  · intro key held none
    have lookup := merges.params key
    rw [none,Option.none_or] at lookup
    exact held lookup.symm
  · intro key value held
    rw [merges.headers,held]
    rfl

theorem Covers.same_params (covers : Covers base fresh) (merges : Merged base fresh merged) : merged.params = fresh.params := by
  apply Std.ExtTreeMap.ext_getElem?
  intro key
  rw [merges.params]
  cases held : fresh.params[key]? with
  | some value => rfl
  | none =>
    cases older : base.params[key]? with
    | none => rfl
    | some value => exact absurd held (covers.params key (by simp [older]))

theorem Covers.same_headers (covers : Covers base fresh) (merges : Merged base fresh merged) :
    merged.headers = fresh.headers := by
  apply Std.ExtTreeMap.ext_getElem?
  intro key
  rw [merges.headers]
  cases held : base.headers[key]? with
  | none => rfl
  | some value => exact (covers.headers key value held).symm

-- Two accepted blocks, the first of them read before the second one.
theorem merged_iff (baseRead : readHeader {} baseStr = .ok (base,true)) (read : readHeader {} headerStr = .ok (fresh,true)) :
    base.readHeader headerStr = .ok (fresh,true) ↔ Covers base fresh := by
  obtain ⟨merged,readOver,merges⟩ := readHeader_merged base read
  obtain ⟨_,baseAgain,basePlain⟩ := readHeader_merged {} baseRead
  obtain ⟨rfl,-⟩ := ok_pair (baseAgain.symm.trans baseRead)
  obtain ⟨_,again,plain⟩ := readHeader_merged {} read
  obtain ⟨rfl,-⟩ := ok_pair (again.symm.trans read)
  constructor
  · intro same
    obtain ⟨rfl,-⟩ := ok_pair (readOver.symm.trans same)
    exact merges.covers
  · intro covers
    have length : merged.contentLength = fresh.contentLength := by
      by_cases given : fresh.headers[ascii "Content-Length"]? = none
      · have older : base.headers[ascii "Content-Length"]? = none := by
          cases held : base.headers[ascii "Content-Length"]? with
          | none => rfl
          | some value => exact absurd given (by simp [covers.headers _ value held])
        rw [(merges.missing given).1,(merges.missing given).2,(basePlain.missing older).2]
      · exact merges.given given
    have same : merged = fresh := by
      have params := covers.same_params merges
      have headers := covers.same_headers merges
      have method := merges.method
      have uri := merges.uri
      have version := merges.version
      have headerData := merges.headerData.trans (basePlain.headerData.trans plain.headerData.symm)
      have content := merges.content.trans (basePlain.content.trans plain.content.symm)
      cases merged
      cases fresh
      simp_all
    rw [readOver,same]

end HttpRequest
end CoStream
