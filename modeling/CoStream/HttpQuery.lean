import CoStream.HttpReassembly

namespace CoStream.HttpRequest
open Foundation

def queryItem (pair : Bytes × Bytes) : Bytes := pair.1++ascii "="++pair.2

def queried (path : Bytes) (pairs : List (Bytes × Bytes)) : Bytes :=
  path++ascii "?"++(ascii "&").intercalate (pairs.map queryItem)

-- A key may hold a '?': the first one of the target is behind the path.
structure Query (path : Bytes) (pairs : List (Bytes × Bytes)) : Prop where
  unmarked : 63 ∉ path
  distinct : (pairs.map Prod.fst).Nodup
  clear : ∀ pair ∈ pairs, ∀ letter ∈ pair.1++pair.2, letter ≠ 38 ∧ letter ≠ 61

-- The path comes back as the uri and the pairs, no others, as the parameters.
def RoundTrips (path : Bytes) (pairs : List (Bytes × Bytes)) (older : Headers) : Prop :=
  ∃ params, getUriAndParams (queried path pairs) older = .ok (path,params,0) ∧
    ∀ key value : Bytes, params[key]? = some value ↔ (key,value) ∈ pairs

variable {path : Bytes} {pairs : List (Bytes × Bytes)} {older params : Headers}

-- StringSplit leaves out what would be empty behind the last '='.
theorem split_empty_value (pair : Bytes × Bytes) (clear : ∀ letter ∈ pair.1++pair.2, letter ≠ 61) (empty : pair.2 = []) :
    split (ascii "=") (queryItem pair) = [pair.1] := by
  have absent : 61 ∉ pair.1 := fun present => clear 61 (List.mem_append_left _ present) rfl
  have first : split [61] (pair.1++61::[]++[]) = pair.1::split [61] [] := split_first absent []
  rw [queryItem,empty]
  exact first

theorem storeParams_empty_value (pairs : List (Bytes × Bytes)) (params : Headers)
    (clear : ∀ pair ∈ pairs, ∀ letter ∈ pair.1++pair.2, letter ≠ 38 ∧ letter ≠ 61)
    (empty : ∃ pair ∈ pairs, pair.2 = []) : ∃ stored, storeParams params (pairs.map queryItem) = .ok (stored,-1) := by
  induction pairs generalizing params with
  | nil =>
    obtain ⟨pair,member,-⟩ := empty
    cases member
  | cons pair rest ih =>
    have apart : ∀ letter ∈ pair.1++pair.2, letter ≠ 61 :=
      fun letter member => (clear pair List.mem_cons_self letter member).2
    rw [List.map_cons,storeParams,stringSplit_exact,ok_bind]
    by_cases bare : pair.2 = []
    · rw [split_empty_value pair apart bare]
      exact ⟨params,rfl⟩
    · rw [queryItem,HttpClient.split_pair pair apart bare]
      apply ih _ fun other member => clear other (List.mem_cons_of_mem _ member)
      obtain ⟨other,member,without⟩ := empty
      rcases List.mem_cons.mp member with rfl | later
      · exact absurd without bare
      · exact ⟨other,later,without⟩

theorem getUriAndParams_items (query : Query path pairs) (stored : storeParams older (pairs.map queryItem) = .ok (params,ret)) :
    getUriAndParams (queried path pairs) older = .ok (path,params,ret) :=
  HttpClient.getUriAndParams_query older query.unmarked query.clear stored

theorem lookup_iff (distinct : (pairs.map Prod.fst).Nodup) (key value : Bytes) :
    pairs.lookup key = some value ↔ (key,value) ∈ pairs := by
  induction pairs with
  | nil => simp
  | cons pair rest ih =>
    obtain ⟨name,first⟩ := pair
    obtain ⟨apart,others⟩ := List.nodup_cons.mp distinct
    rw [lookup_first,List.mem_cons]
    by_cases same : key = name
    · subst same
      have later : (key,value) ∉ rest := fun member => apart (List.mem_map.mpr ⟨_,member,rfl⟩)
      simp [later,eq_comm]
    · rw [if_neg same,ih others]
      simp [same]

theorem lookup_covered (pairs : List (Bytes × Bytes)) (key : Bytes) : pairs.lookup key = none ↔ key ∉ pairs.map Prod.fst := by
  rw [List.lookup_eq_none_iff,List.mem_map]
  constructor
  · rintro apart ⟨pair,member,rfl⟩
    have other := apart pair member
    simp at other
  · intro absent pair member
    rw [bne_iff_ne]
    exact fun same => absent ⟨pair,member,same.symm⟩

theorem stored_exactly (distinct : (pairs.map Prod.fst).Nodup) :
    (∀ key value : Bytes, (pairs.foldl (fun params pair => params.insert pair.1 pair.2) older)[key]? = some value ↔
      (key,value) ∈ pairs) ↔ ∀ key : Bytes, older[key]? ≠ none → key ∈ pairs.map Prod.fst := by
  constructor
  · intro exactly key held
    obtain ⟨value,holds⟩ := Option.ne_none_iff_exists'.mp held
    by_contra missing
    have lookup := HttpClient.Reply.foldl_lookup pairs distinct older key
    rw [(lookup_covered pairs key).mpr missing,Option.none_or,holds] at lookup
    exact missing (List.mem_map.mpr ⟨_,(exactly key value).mp lookup,rfl⟩)
  · intro covered key value
    rw [HttpClient.Reply.foldl_lookup pairs distinct,← lookup_iff distinct]
    cases given : pairs.lookup key with
    | some other => rw [Option.some_or]
    | none =>
      have unheld : older[key]? = none := by
        by_contra held
        exact (lookup_covered pairs key).mp given (covered key held)
      rw [unheld,Option.or_none]

-- A pair without a value makes GetUriAndParams refuse the target, wherever it
-- stands. The map that is passed in keeps the keys it has.
theorem query_round_trips_iff (query : Query path pairs) :
    RoundTrips path pairs older ↔
      (∀ pair ∈ pairs, pair.2 ≠ []) ∧ ∀ key : Bytes, older[key]? ≠ none → key ∈ pairs.map Prod.fst := by
  by_cases filled : ∀ pair ∈ pairs, pair.2 ≠ []
  · have read := getUriAndParams_items query (HttpClient.storeParams_pairs pairs older
      fun pair member => ⟨filled pair member,query.clear pair member⟩)
    rw [and_iff_right filled,← stored_exactly query.distinct]
    constructor
    · rintro ⟨params,again,exactly⟩
      rw [read] at again
      cases again
      exact exactly
    · intro exactly
      exact ⟨_,read,exactly⟩
  · have empty : ∃ pair ∈ pairs, pair.2 = [] := by
      simpa using filled
    obtain ⟨stored,refused⟩ := storeParams_empty_value pairs older query.clear empty
    have read := getUriAndParams_items query refused
    constructor
    · rintro ⟨params,again,-⟩
      rw [read] at again
      cases again
    · intro both
      exact absurd both.1 filled

theorem search_round_trips : RoundTrips (ascii "/api") [(ascii "id",ascii "7"),(ascii "q?",ascii "on")] ∅ := by
  apply (query_round_trips_iff ⟨by decide,by decide,by decide +kernel⟩).mpr
  refine ⟨by decide,fun key held => absurd ?_ held⟩
  rfl

-- "/api?id=7&q=" is refused.
theorem empty_value_refused :
    getUriAndParams (queried (ascii "/api") [(ascii "id",ascii "7"),(ascii "q",[])]) ∅ =
      .ok (ascii "/api",(∅ : Headers).insert (ascii "id") (ascii "7"),-1) ∧
    ¬ ∀ path pairs, Query path pairs → pairs ≠ [] → (∀ pair ∈ pairs, pair.1 ≠ []) → RoundTrips path pairs ∅ := by
  have read : getUriAndParams (queried (ascii "/api") [(ascii "id",ascii "7"),(ascii "q",[])]) ∅ =
      .ok (ascii "/api",(∅ : Headers).insert (ascii "id") (ascii "7"),-1) := by rfl
  refine ⟨read,?_⟩
  intro always
  have query : Query (ascii "/api") [(ascii "id",ascii "7"),(ascii "q",[])] :=
    ⟨by decide,by decide,by decide +kernel⟩
  obtain ⟨params,again,-⟩ := always _ _ query (by simp) (by decide)
  rw [read] at again
  cases again

end CoStream.HttpRequest
