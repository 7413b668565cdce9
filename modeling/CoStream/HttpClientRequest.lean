import CoStream.HttpClient
import CoStream.HttpRequest

namespace CoStream
open Foundation

theorem lookup_first (name value : Bytes) (rest : List (Bytes × Bytes)) (key : Bytes) :
    ((name,value)::rest).lookup key = if key = name then some value else rest.lookup key := by
  rw [List.lookup_cons]
  by_cases same : key = name
  · simp [same]
  · rw [if_neg same,beq_eq_false_iff_ne.mpr same]

theorem insert_lookup (headers : Headers) (name value key : Bytes) :
    (headers.insert name value)[key]? = if key = name then some value else headers[key]? := by
  rw [Std.ExtTreeMap.getElem?_insert]
  by_cases same : key = name
  · rw [if_pos (Std.LawfulEqOrd.compare_eq_iff_eq.mpr same.symm),if_pos same]
  · rw [if_neg fun equal => same (Std.LawfulEqOrd.eq_of_compare equal).symm,if_neg same]

theorem toList_lookup (headers : Headers) (key : Bytes) : headers.toList.lookup key = headers[key]? := by
  cases held : headers[key]? with
  | none =>
    rw [List.lookup_eq_none_iff]
    rintro ⟨other,value⟩ member
    have present := Std.ExtTreeMap.mem_toList_iff_getElem?_eq_some.mp member
    simp only [bne_iff_ne,ne_eq]
    rintro rfl
    rw [held] at present
    cases present
  | some value =>
    have member := Std.ExtTreeMap.mem_toList_iff_getElem?_eq_some.mpr held
    obtain ⟨before,after,shape⟩ := List.append_of_mem member
    rw [List.lookup_eq_some_iff]
    refine ⟨before,after,shape,?_⟩
    have distinct := headers.distinct_keys_toList
    rw [shape,List.pairwise_append] at distinct
    intro row early
    have apart := distinct.2.2 row early _ List.mem_cons_self
    simp only [bne_iff_ne,ne_eq]
    rintro rfl
    exact apart (by simp)

def storeNew (headers : Headers) (fields : List (Bytes × Bytes)) : Headers :=
  fields.foldl (fun held field => held.insertIfNew field.1 field.2) headers

-- Of several lines with one key, the first counts.
theorem storeNew_lookup (fields : List (Bytes × Bytes)) (headers : Headers) (key : Bytes) :
    (storeNew headers fields)[key]? = headers[key]?.or (fields.lookup key) := by
  induction fields generalizing headers with
  | nil => simp [storeNew]
  | cons field rest ih =>
    obtain ⟨name,value⟩ := field
    have first : (headers.insertIfNew name value)[key]? = headers[key]?.or (if key = name then some value else none) := by
      rw [Std.ExtTreeMap.getElem?_insertIfNew]
      by_cases same : key = name
      · subst same
        by_cases held : key ∈ headers
        · simp [held]
        · simp [held]
      · have other : ¬(compare name key = .eq ∧ name ∉ headers) := by
          rintro ⟨equal,-⟩
          exact same (Std.LawfulEqOrd.eq_of_compare equal).symm
        rw [if_neg other,if_neg same,Option.or_none]
    rw [storeNew,List.foldl_cons,← storeNew,ih,first,lookup_first]
    by_cases same : key = name
    · subst same
      cases headers[key]? <;> simp
    · simp [same]

-- The cut behind the colon of a line.
theorem colon_cut {name : Bytes} (unmarked : 58 ∉ name) (behind : Bytes) :
    find? (ascii ":") (name++ascii ":"++behind) = some name.length ∧
      (name++ascii ":"++behind).take name.length = name ∧
      (behind = [] → substr (name++ascii ":"++behind) (name.length+2) = .error .outOfRange) ∧
      (behind ≠ [] → substr (name++ascii ":"++behind) (name.length+2) = .ok (behind.drop 1)) := by
  have size : (name++ascii ":"++behind).length = name.length+1+behind.length := by
    rw [List.length_append,List.length_append]
    rfl
  refine ⟨find?_first unmarked behind,?_,?_,?_⟩
  · rw [List.append_assoc,List.take_left' rfl]
  · rintro rfl
    apply if_pos
    rw [size,List.length_nil]
    omega
  · intro filled
    have long := List.length_pos_iff.mpr filled
    have past : (name++ascii ":"++behind).drop (name.length+1) = behind := List.drop_left' (by simp [ascii])
    have tail : (name++ascii ":"++behind).drop (name.length+1+1) = behind.drop 1 := by
      rw [← List.drop_drop,past]
    rw [substr_ok (by omega)]
    exact congrArg Except.ok tail

namespace HttpClient

def methodName : HttpMethod → Bytes
  | .get => ascii "GET"
  | .post => ascii "POST"

def body (client : HttpClient) : Bytes :=
  match client.method with
  | .get => []
  | .post => client.postData

def lengthField (client : HttpClient) : List (Bytes × Bytes) :=
  match client.method with
  | .get => []
  | .post => [(ascii "Content-Length",decimal client.postData.length)]

def fields (client : HttpClient) : List (Bytes × Bytes) :=
  (ascii "Accept",ascii "*/*")::(ascii "Host",client.host)::client.headers.toList++client.lengthField

def fieldLine (field : Bytes × Bytes) : Bytes := field.1++ascii ": "++field.2

def requestLine (client : HttpClient) : Bytes :=
  (ascii " ").intercalate [methodName client.method,client.subpath,ascii "HTTP/1.1"]

def lines (client : HttpClient) : List Bytes := client.requestLine::client.fields.map fieldLine

def headerBlock (client : HttpClient) : Bytes := crlf.intercalate client.lines

theorem intercalate_ends (line : Bytes) (rest : List Bytes) :
    (line::rest).flatMap (·++crlf) = crlf.intercalate (line::rest)++crlf := by
  induction rest generalizing line with
  | nil => simp
  | cons next rest ih =>
    rw [List.flatMap_cons,ih,List.intercalate_cons_cons]
    simp

theorem onConnect_layout (client : HttpClient) :
    client.onConnect = client.headerBlock++blankLine++client.body := by
  have ended := intercalate_ends client.requestLine (client.fields.map fieldLine)
  have block : client.headerBlock++crlf = client.lines.flatMap (·++crlf) := ended.symm
  rw [blankLine,← List.append_assoc,block]
  simp only [lines,fields,onConnect,printHeaders,requestLine,lengthField,body,List.flatMap_cons,List.flatMap_append,
    List.map_cons,List.map_append,List.flatMap_map,fieldLine,List.cons_append]
  cases client.method with
  | get => simp [methodName,List.intercalate,ascii]
  | post => simp [methodName,List.intercalate,ascii]

-- The requests that a client can be asked for: the target is a path, with the
-- parameters that follow its first '?'.
structure Wellformed (client : HttpClient) (path : Bytes) (pairs : List (Bytes × Bytes)) : Prop where
  host : ∀ letter ∈ client.host, letter ≠ 32 ∧ letter ≠ 13 ∧ letter ≠ 10
  subpath : ∀ letter ∈ client.subpath, letter ≠ 32 ∧ letter ≠ 13 ∧ letter ≠ 10
  unmarked : 63 ∉ path
  target : client.subpath = path ∧ pairs = [] ∨ client.subpath =
    path++ascii "?"++(ascii "&").intercalate (pairs.map fun pair => pair.1++ascii "="++pair.2)
  params : ∀ pair ∈ pairs, pair.2 ≠ [] ∧ ∀ letter ∈ pair.1++pair.2, letter ≠ 38 ∧ letter ≠ 61
  keys : ∀ field ∈ client.headers.toList, ∀ letter ∈ field.1, letter ≠ 58 ∧ letter ≠ 13 ∧ letter ≠ 10
  apart : ∀ field ∈ client.headers.toList,
    field.1 ≠ ascii "Accept" ∧ field.1 ≠ ascii "Host" ∧ field.1 ≠ ascii "Content-Length"
  values : ∀ field ∈ client.headers.toList, ∀ letter ∈ field.2, letter ≠ 13 ∧ letter ≠ 10
  content : client.method = .post → client.postData ≠ []
  short : client.onConnect.length < 2^31-65536

-- What the server side should make of it.
def sent (client : HttpClient) (path : Bytes) (pairs : List (Bytes × Bytes)) : HttpRequest where
  method := methodName client.method
  uri := path
  contentLength := client.body.length
  params := pairs.foldl (fun params pair => params.insert pair.1 pair.2) ∅
  version := ascii "1.1"
  headers :=
    let named := (client.headers.insert (ascii "Accept") (ascii "*/*")).insert (ascii "Host") client.host
    match client.method with
    | .get => named
    | .post => named.insert (ascii "Content-Length") (decimal client.postData.length)
  content := client.body

variable {client : HttpClient} {path : Bytes} {pairs : List (Bytes × Bytes)}

theorem split_pair (pair : Bytes × Bytes) (clear : ∀ letter ∈ pair.1++pair.2, letter ≠ 61) (filled : pair.2 ≠ []) :
    split (ascii "=") (pair.1++ascii "="++pair.2) = [pair.1,pair.2] := by
  have joined : pair.1++ascii "="++pair.2 = [(61 : UInt8)].intercalate [pair.1,pair.2] := by
    simp [List.intercalate,ascii]
  rw [joined]
  apply split_intercalate
  · intro segment member present
    rcases List.mem_pair.mp member with rfl | rfl
    · exact clear 61 (List.mem_append_left _ present) rfl
    · exact clear 61 (List.mem_append_right _ present) rfl
  · intro last ends
    cases ends
    exact filled

theorem storeParams_pairs (pairs : List (Bytes × Bytes)) (params : Headers)
    (good : ∀ pair ∈ pairs, pair.2 ≠ [] ∧ ∀ letter ∈ pair.1++pair.2, letter ≠ 38 ∧ letter ≠ 61) :
    HttpRequest.storeParams params (pairs.map fun pair => pair.1++ascii "="++pair.2) =
      .ok (pairs.foldl (fun params pair => params.insert pair.1 pair.2) params,0) := by
  induction pairs generalizing params with
  | nil => rfl
  | cons pair rest ih =>
    obtain ⟨filled,clear⟩ := good pair List.mem_cons_self
    rw [List.map_cons,HttpRequest.storeParams,stringSplit_exact,ok_bind,
      split_pair pair (fun letter member => (clear letter member).2) filled]
    exact ih _ fun other member => good other (List.mem_cons_of_mem _ member)

theorem split_items (clear : ∀ pair ∈ pairs, ∀ letter ∈ pair.1++pair.2, letter ≠ 38 ∧ letter ≠ 61) :
    split (ascii "&") ((ascii "&").intercalate (pairs.map fun pair => pair.1++ascii "="++pair.2)) =
      pairs.map fun pair => pair.1++ascii "="++pair.2 := by
  apply split_intercalate
  · intro item member present
    obtain ⟨pair,listed,rfl⟩ := List.mem_map.mp member
    have apart := clear pair listed 38
    simp only [List.mem_append] at present apart
    rcases present with (inKey | equals) | inValue
    · exact (apart (.inl inKey)).1 rfl
    · revert equals
      decide
    · exact (apart (.inr inValue)).1 rfl
  · intro last ends empty
    obtain ⟨pair,-,rfl⟩ := List.mem_map.mp (List.mem_of_getLast? ends)
    simp [ascii] at empty

-- What is behind the '?' is cut into the items it was made of.
theorem getUriAndParams_query {params : Headers} (older : Headers) (unmarked : 63 ∉ path)
    (clear : ∀ pair ∈ pairs, ∀ letter ∈ pair.1++pair.2, letter ≠ 38 ∧ letter ≠ 61)
    (stored : HttpRequest.storeParams older (pairs.map fun pair => pair.1++ascii "="++pair.2) = .ok (params,ret)) :
    HttpRequest.getUriAndParams
      (path++ascii "?"++(ascii "&").intercalate (pairs.map fun pair => pair.1++ascii "="++pair.2)) older =
        .ok (path,params,ret) := by
  generalize whole : path++ascii "?"++(ascii "&").intercalate (pairs.map fun pair => pair.1++ascii "="++pair.2) = target
  have found : find? (ascii "?") target = some path.length := by
    rw [← whole]
    exact find?_first unmarked _
  have front : target.take path.length = path := by
    rw [← whole,List.append_assoc,List.take_left' rfl]
  have query : target.drop (path.length+1) =
      (ascii "&").intercalate (pairs.map fun pair => pair.1++ascii "="++pair.2) := by
    rw [← whole]
    exact List.drop_left' (by simp [ascii])
  have inside : path.length+1 ≤ target.length := (find?_inside found).1
  unfold HttpRequest.getUriAndParams
  rw [found]
  dsimp only
  rw [substr_ok inside,ok_bind,query,stringSplit_exact,ok_bind,split_items clear,stored,ok_bind,front]

theorem getUriAndParams_target (good : client.Wellformed path pairs) :
    HttpRequest.getUriAndParams client.subpath ∅ = .ok (path,(client.sent path pairs).params,0) := by
  rcases good.target with ⟨whole,rfl⟩ | whole
  · have missing : find? (ascii "?") path = none := find?_absent good.unmarked
    unfold HttpRequest.getUriAndParams
    rw [whole,missing]
    rfl
  · rw [whole]
    exact getUriAndParams_query ∅ good.unmarked (fun pair member => (good.params pair member).2)
      (storeParams_pairs pairs ∅ good.params)

theorem fieldLine_cut (field : Bytes × Bytes) (clear : 58 ∉ field.1) :
    find? (ascii ":") (fieldLine field) = some field.1.length ∧ (fieldLine field).take field.1.length = field.1 ∧
      substr (fieldLine field) (field.1.length+2) = .ok field.2 := by
  have layout : fieldLine field = field.1++ascii ":"++32::field.2 := by simp [fieldLine,ascii]
  obtain ⟨found,key,-,cut⟩ := colon_cut clear (32::field.2)
  rw [layout]
  exact ⟨found,key,cut (by simp)⟩

theorem readLines_fields (fields : List (Bytes × Bytes)) (request : HttpRequest)
    (clear : ∀ field ∈ fields, 58 ∉ field.1) :
    request.readLines (fields.map fieldLine) =
      .ok (fields.foldl (fun request field => request.addHeader field.1 field.2) request,true) := by
  induction fields generalizing request with
  | nil => rfl
  | cons field rest ih =>
    obtain ⟨found,key,value⟩ := fieldLine_cut field (clear field List.mem_cons_self)
    rw [List.map_cons,HttpRequest.readLines,found]
    dsimp only
    rw [value,ok_bind,key]
    exact ih _ fun other member => clear other (List.mem_cons_of_mem _ member)

theorem addHeaders_exact (fields : List (Bytes × Bytes)) (request : HttpRequest) :
    fields.foldl (fun request field => request.addHeader field.1 field.2) request =
      {request with
        contentLength:=fields.foldl
          (fun length field => if field.1 = ascii "Content-Length" then atoi field.2 else length) request.contentLength
        headers:=storeNew request.headers fields} := by
  induction fields generalizing request with
  | nil => rfl
  | cons field rest ih =>
    rw [List.foldl_cons,ih]
    rfl

theorem fields_clear (good : client.Wellformed path pairs) : ∀ field ∈ client.fields, 58 ∉ field.1 := by
  intro field member present
  simp only [fields,lengthField,List.cons_append,List.mem_cons,List.mem_append] at member
  rcases member with rfl | rfl | given | added
  · revert present
    decide
  · change 58 ∈ ascii "Host" at present
    revert present
    decide
  · exact (good.keys field given 58 present).1 rfl
  · cases method : client.method with
    | get => simp [method] at added
    | post =>
      simp only [method,List.mem_singleton] at added
      subst added
      change 58 ∈ ascii "Content-Length" at present
      revert present
      decide

theorem foldl_length (fields : List (Bytes × Bytes)) (length : Int)
    (apart : ∀ field ∈ fields, field.1 ≠ ascii "Content-Length") :
    fields.foldl (fun length field => if field.1 = ascii "Content-Length" then atoi field.2 else length) length =
      length := by
  induction fields with
  | nil => rfl
  | cons field rest ih =>
    rw [List.foldl_cons,if_neg (apart field List.mem_cons_self)]
    exact ih fun other member => apart other (List.mem_cons_of_mem _ member)

theorem body_short (good : client.Wellformed path pairs) : client.body.length < 2^31-65536 := by
  have whole := good.short
  rw [onConnect_layout,List.length_append] at whole
  omega

theorem fields_length (good : client.Wellformed path pairs) :
    client.fields.foldl (fun length field => if field.1 = ascii "Content-Length" then atoi field.2 else length) 0 =
      (client.body.length : Int) := by
  have named : ∀ field ∈ (ascii "Accept",ascii "*/*")::(ascii "Host",client.host)::client.headers.toList,
      field.1 ≠ ascii "Content-Length" := by
    intro field member
    simp only [List.mem_cons] at member
    rcases member with rfl | rfl | given
    · decide
    · change ascii "Host" ≠ ascii "Content-Length"
      decide
    · exact (good.apart field given).2.2
  have small := body_short good
  rw [fields,List.foldl_append,foldl_length _ _ named]
  unfold lengthField
  unfold body at small ⊢
  cases method : client.method with
  | get => rfl
  | post =>
    rw [method] at small
    exact atoi_decimal _ (by dsimp only at small; omega)

-- The three names are not among the given ones, so nothing is shadowed.
theorem fields_headers (good : client.Wellformed path pairs) :
    storeNew ∅ client.fields = (client.sent path pairs).headers := by
  have free : ∀ name, (∀ field ∈ client.headers.toList, field.1 ≠ name) → client.headers[name]? = none := by
    intro name apart
    cases held : client.headers[name]? with
    | none => rfl
    | some value => exact absurd rfl (apart _ (Std.ExtTreeMap.mem_toList_iff_getElem?_eq_some.mpr held))
  have lengthFree := free (ascii "Content-Length") fun field member => (good.apart field member).2.2
  apply Std.ExtTreeMap.ext_getElem?
  intro key
  rw [storeNew_lookup,Std.ExtTreeMap.getElem?_empty,Option.none_or,fields,List.cons_append,List.cons_append,
    lookup_first,lookup_first,List.lookup_append,toList_lookup]
  have hostAccept : ascii "Host" ≠ ascii "Accept" := by decide
  have lengthAccept : ascii "Content-Length" ≠ ascii "Accept" := by decide
  have lengthHost : ascii "Content-Length" ≠ ascii "Host" := by decide
  unfold sent lengthField
  cases client.method with
  | get =>
    simp only [insert_lookup,List.lookup_nil,Option.or_none]
    by_cases accept : key = ascii "Accept"
    · simp [accept,hostAccept.symm]
    · simp [accept]
  | post =>
    simp only [insert_lookup,lookup_first,List.lookup_nil]
    by_cases accept : key = ascii "Accept"
    · simp [accept,hostAccept.symm,lengthAccept.symm]
    · by_cases host : key = ascii "Host"
      · simp [host,hostAccept,lengthHost.symm]
      · by_cases length : key = ascii "Content-Length"
        · subst length
          simp [accept,host,lengthFree]
        · simp [accept,host,length]

-- What keeps the lines of a request apart, and the items of its first line.
structure Clear (client : HttpClient) : Prop where
  host : 13 ∉ client.host
  subpath : 13 ∉ client.subpath ∧ 32 ∉ client.subpath
  given : ∀ field ∈ client.headers.toList, 13 ∉ field.1 ∧ 13 ∉ field.2

theorem Wellformed.clear (good : client.Wellformed path pairs) : client.Clear where
  host present := (good.host 13 present).2.1 rfl
  subpath := ⟨fun present => (good.subpath 13 present).2.1 rfl,fun present => (good.subpath 32 present).1 rfl⟩
  given field member := ⟨fun present => (good.keys field member 13 present).2.1 rfl,
    fun present => (good.values field member 13 present).1 rfl⟩

-- The request line and the fields are clear of line ends, so the block is cut
-- into just these lines.
theorem lines_clear (clear : client.Clear) : ∀ line ∈ client.lines, 13 ∉ line ∧ line ≠ [] := by
  have field : ∀ key value : Bytes, 13 ∉ key → 13 ∉ value → 13 ∉ fieldLine (key,value) ∧ fieldLine (key,value) ≠ [] := by
    intro key value keyClear valueClear
    simp [fieldLine,ascii,keyClear,valueClear]
  have digits : 13 ∉ decimal client.postData.length := by
    intro present
    have digit := decimal_digits _ 13 present
    revert digit
    decide
  intro line member
  rcases List.mem_cons.mp member with rfl | listed
  · cases method : client.method <;> simp [requestLine,List.intercalate,method,methodName,ascii,clear.subpath.1]
  · obtain ⟨⟨key,value⟩,given,rfl⟩ := List.mem_map.mp listed
    simp only [fields,lengthField,List.cons_append,List.mem_cons,List.mem_append,Prod.mk.injEq] at given
    rcases given with ⟨rfl,rfl⟩ | ⟨rfl,rfl⟩ | own | added
    · exact field _ _ (by decide) (by decide)
    · exact field _ _ (by decide) clear.host
    · exact field _ _ (clear.given _ own).1 (clear.given _ own).2
    · cases method : client.method with
      | get => simp [method] at added
      | post =>
        simp only [method,List.mem_singleton,Prod.mk.injEq] at added
        obtain ⟨rfl,rfl⟩ := added
        exact field _ _ (by decide) digits

theorem split_headerBlock (clear : client.Clear) : split crlf client.headerBlock = client.lines :=
  split_intercalate _ (fun line member => (lines_clear clear line member).1) fun last ends =>
    (lines_clear clear last (List.mem_of_getLast? ends)).2

theorem split_requestLine (clear : client.Clear) :
    split (ascii " ") client.requestLine = [methodName client.method,client.subpath,ascii "HTTP/1.1"] := by
  apply split_intercalate
  · intro segment member present
    simp only [List.mem_cons,List.not_mem_nil,or_false] at member
    rcases member with rfl | rfl | rfl
    · revert present
      cases client.method <;> decide
    · exact clear.subpath.2 present
    · revert present
      decide
  · intro last ends
    cases ends
    change ascii "HTTP/1.1" ≠ []
    decide

-- Reading the block gives the request that was sent, for a request that has
-- held nothing yet.
theorem readHeader_sent (good : client.Wellformed path pairs) (headerData : Bytes) :
    HttpRequest.readHeader {headerData} client.headerBlock =
      .ok ({client.sent path pairs with headerData,content:=[]},true) := by
  have version : substr (ascii "HTTP/1.1") (0+5) = .ok (ascii "1.1") := by decide
  unfold HttpRequest.readHeader
  rw [stringSplit_exact,ok_bind,split_headerBlock good.clear,lines]
  dsimp only
  unfold HttpRequest.readFirstLine
  rw [stringSplit_exact,ok_bind,split_requestLine good.clear]
  dsimp only
  unfold HttpRequest.readTarget
  rw [getUriAndParams_target good,ok_bind]
  dsimp only
  rw [if_neg (by decide)]
  unfold HttpRequest.readVersion
  rw [show find? (ascii "HTTP") (ascii "HTTP/1.1") = some 0 from by decide]
  dsimp only
  rw [version,ok_bind,readLines_fields _ _ (fields_clear good),addHeaders_exact,fields_length good,fields_headers good]
  rfl

theorem find?_headerBlock (clear : client.Clear) :
    find? blankLine (client.headerBlock++blankLine) = some client.headerBlock.length := by
  have found : find? blankLine (client.headerBlock++blankLine++[]) = some client.headerBlock.length :=
    find?_blank_line (by decide) client.lines (by simp [lines]) (lines_clear clear) []
  rw [List.append_nil] at found
  exact found

theorem find?_onConnect (clear : client.Clear) :
    find? blankLine client.onConnect = some client.headerBlock.length := by
  rw [onConnect_layout]
  exact find?_append (find?_headerBlock clear) client.body

-- However the request is cut, one read completes the header block; what that
-- read has beyond it, and the reads behind it, are the body.
theorem reads_cut (good : client.Wellformed path pairs) (chunks : List Bytes) (cut : chunks.flatten = client.onConnect) :
    ∃ front chunk rest, chunks = front++chunk::rest ∧ find? blankLine front.flatten = none ∧
      find? blankLine (front.flatten++chunk) = some client.headerBlock.length ∧
      (front.flatten++chunk).take client.headerBlock.length = client.headerBlock ∧
      (front.flatten++chunk).drop (client.headerBlock.length+4)++rest.flatten = client.body := by
  apply find?_cut chunks (by decide) (find?_headerBlock good.clear)
  rw [cut,onConnect_layout]

end HttpClient
end CoStream
