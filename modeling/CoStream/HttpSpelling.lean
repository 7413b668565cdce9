import Mathlib.Data.List.Nodup
import CoStream.HttpQuery
import CoStream.HttpSlices

namespace CoStream.HttpSpelling
open Foundation

-- A line of a header block: one without a colon, or a name, a colon, some spaces
-- and a value.
inductive Row where
  | bare (text : Bytes) (unmarked : 58 ∉ text)
  | field (name : Bytes) (spaces : Nat) (value : Bytes) (unmarked : 58 ∉ name)

def Row.text : Row → Bytes
  | .bare text _ => text
  | .field name spaces value _ => name++ascii ":"++(List.replicate spaces 32++value)

-- The case of the letters of a name and the number of the spaces may differ.
inductive Respelled : Row → Row → Prop where
  | bare (text : Bytes) (unmarked : 58 ∉ text) : Respelled (.bare text unmarked) (.bare text unmarked)
  | field (name other : Bytes) (spaces room : Nat) (value : Bytes) (unmarked : 58 ∉ name) (clear : 58 ∉ other)
      (same : string2Lower name = string2Lower other) :
      Respelled (.field name spaces value unmarked) (.field other room value clear)

-- The fields in front of the first line without a colon, with all that is behind
-- their colons.
def counted : List Row → List (Bytes × Bytes)
  | .field name spaces value _::rest => (name,List.replicate spaces 32++value)::counted rest
  | _ => []

def whole : List Row → Bool
  | .field _ _ _ _::rest => whole rest
  | .bare _ _::_ => false
  | [] => true

-- A value is what follows the first byte behind its colon, if there is one.
def Starved (rows : List Row) : Prop := ∃ field ∈ counted rows, field.2 = []
instance (rows : List Row) : Decidable (Starved rows) := inferInstanceAs (Decidable (∃ field ∈ counted rows, field.2 = []))
def fields (rows : List Row) : List (Bytes × Bytes) := (counted rows).map fun field => (field.1,field.2.drop 1)

-- The last line that is named literally so.
def givenLength (length : Int) (fields : List (Bytes × Bytes)) : Int :=
  fields.foldl (fun length field => if field.1 = ascii "Content-Length" then atoi field.2 else length) length

-- Of the fields with literally the same name the first one counts.
def Counts (ranked : List (Bytes × Bytes)) (name value : Bytes) : Prop :=
  ∃ key, string2Lower key = name ∧ ranked.lookup key = some value

-- A line of both blocks, in front of the first one without a colon: its two
-- spellings, and the value as the first block has it.
structure Line where
  name : Bytes
  other : Bytes
  value : Bytes
deriving DecidableEq,Repr

def lines : List Row → List Row → List Line
  | .field name spaces value _::rest,.field other _ _ _::others =>
    ⟨name,other,(List.replicate spaces 32++value).drop 1⟩::lines rest others
  | _,_ => []

-- The spaces in front of the values, line by line.
def spacing : List Row → List Nat
  | .field _ spaces _ _::rest => spaces::spacing rest
  | _ => []

-- The headers that are there before.
def holding (held : Headers) : List Line := held.toList.map fun header => ⟨header.1,header.1,header.2⟩

-- Headers go before the fields of a block, the first with a name counting. With
-- the client the last one does.
def ranked {α : Type} (last : Bool) (held block : List α) : List α :=
  if last then block.reverse++held else held++block

-- A line repeats the name of one in front of it in both blocks or in neither.
def SameFirsts (front : List Line) : List Line → Prop
  | [] => True
  | line::rest => ((∃ earlier ∈ front, earlier.name = line.name) ↔ ∃ earlier ∈ front, earlier.other = line.other) ∧
      SameFirsts (line::front) rest

-- The last line that is spelled literally so is the same one.
def SameLast : List Line → Prop
  | [] => True
  | line::rest => ((line.name = ascii "Content-Length" ∧ ∀ later ∈ rest, later.name ≠ ascii "Content-Length") ↔
      line.other = ascii "Content-Length" ∧ ∀ later ∈ rest, later.other ≠ ascii "Content-Length") ∧ SameLast rest

instance decideFirsts : (front behind : List Line) → Decidable (SameFirsts front behind)
  | _,[] => .isTrue trivial
  | front,line::rest =>
    have := decideFirsts (line::front) rest
    inferInstanceAs (Decidable (_ ∧ _))
instance decideLast : (lines : List Line) → Decidable (SameLast lines)
  | [] => .isTrue trivial
  | _::rest =>
    have := decideLast rest
    inferInstanceAs (Decidable (_ ∧ _))

-- What the spellings may not change: whether some line has nothing behind its
-- colon, the spaces, which line is the last one spelled Content-Length (unless it
-- gives the length that is there already), and which lines repeat a name.
structure SpelledAlike (compared : Prop) (length : Int) (held : Headers) (last : Bool) (rows others : List Row) : Prop where
  starved : Starved rows ↔ Starved others
  spaces : ¬ Starved rows → compared → spacing rows = spacing others
  lengths : ¬ Starved rows → compared → SameLast (lines rows others) ∨ ∀ line ∈ lines rows others,
    line.name = ascii "Content-Length" ∨ line.other = ascii "Content-Length" → atoi line.value = length
  firsts : ¬ Starved rows → compared → SameFirsts [] (ranked last (holding held) (lines rows others))

-- No name is repeated, nor is it the name of a header that is there before, in
-- whatever case.
structure Single (held : Headers) (rows : List Row) : Prop where
  once : ((counted rows).map fun field => string2Lower field.1).Nodup
  fresh : ∀ field ∈ counted rows, ∀ header ∈ held.toList, string2Lower header.1 ≠ string2Lower field.1

-- With repeated names other spellings may still come out the same: the numbers of
-- the last lines spelled Content-Length, and the names and texts of the lines that
-- count.
structure Alike (compared : Prop) (length : Int) (held : Headers) (last : Bool) (rows others : List Row) : Prop where
  starved : Starved rows ↔ Starved others
  lengths : ¬ Starved rows → compared → givenLength length (fields rows) = givenLength length (fields others)
  values : ¬ Starved rows → compared → ∀ name value : Bytes,
    Counts (ranked last held.toList (fields rows)) name value ↔ Counts (ranked last held.toList (fields others)) name value

-- What comes of a header block: a code, the length and the headers. Names are
-- compared without case.
structure Seen where
  code : Int
  length : Int
  headers : Headers

def Held (headers : Headers) (name value : Bytes) : Prop := ∃ key, string2Lower key = name ∧ headers[key]? = some value

def SameSeen (one two : Seen) : Prop :=
  one.code = two.code ∧ one.length = two.length ∧ ∀ name value : Bytes, Held one.headers name value ↔ Held two.headers name value

def SameMeaning {ε : Type} : Except ε Seen → Except ε Seen → Prop
  | .ok one,.ok two => SameSeen one two
  | .error one,.error two => one = two
  | _,_ => False

variable {rows others : List Row} {name other value : Bytes}

theorem respelled_whole (respelled : List.Forall₂ Respelled rows others) : whole rows = whole others := by
  induction respelled with
  | nil => rfl
  | cons first _ ih =>
    cases first with
    | bare text unmarked => rfl
    | field name other spaces room value unmarked clear same => exact ih

theorem fed_nothing : ¬ Starved [] := by
  rintro ⟨field,never,-⟩
  cases never

theorem fed_bare (text : Bytes) (unmarked : 58 ∉ text) (rest : List Row) : ¬ Starved (.bare text unmarked::rest) := by
  rintro ⟨field,never,-⟩
  cases never

theorem starved_field (spaces : Nat) (unmarked : 58 ∉ name) (rest : List Row) :
    Starved (.field name spaces value unmarked::rest) ↔ List.replicate spaces 32++value = [] ∨ Starved rest := by
  unfold Starved
  rw [counted]
  simp only [List.mem_cons,exists_eq_or_imp]

-- What AnalyzeHeader makes of the lines behind the first one.
theorem readLines_rows (rows : List Row) (request : HttpRequest) :
    (Starved rows → request.readLines (rows.map Row.text) = .error .outOfRange) ∧
    (¬ Starved rows → request.readLines (rows.map Row.text) =
      .ok ((fields rows).foldl (fun request field => request.addHeader field.1 field.2) request,whole rows)) := by
  induction rows generalizing request with
  | nil => exact ⟨fun starved => absurd starved fed_nothing,fun _ => rfl⟩
  | cons row rest ih =>
    rw [List.map_cons,HttpRequest.readLines]
    cases row with
    | bare text unmarked =>
      have missing : find? (ascii ":") (Row.bare text unmarked).text = none := find?_absent unmarked
      rw [missing]
      exact ⟨fun starved => absurd starved (fed_bare text unmarked rest),fun _ => rfl⟩
    | field name spaces value unmarked =>
      obtain ⟨found,key,throws,cuts⟩ := colon_cut unmarked (List.replicate spaces 32++value)
      rw [Row.text,found,starved_field]
      dsimp only
      rw [key]
      by_cases empty : List.replicate spaces 32++value = []
      · rw [throws empty,error_bind]
        exact ⟨fun _ => rfl,fun fed => absurd (.inl empty) fed⟩
      · rw [cuts empty,ok_bind,or_iff_right empty]
        exact ih _

-- What the header loop of OnRead makes of them.
theorem readHeaderLines_rows (rows : List Row) (r : HttpClientResponse) :
    (Starved rows → HttpClient.readHeaderLines r (rows.map Row.text) = .error (.thrown .outOfRange)) ∧
    (¬ Starved rows → HttpClient.readHeaderLines r (rows.map Row.text) = if whole rows then .ok {r with
      contentLength:=givenLength r.contentLength (fields rows)
      headers:=(fields rows).foldl (fun held field => held.insert field.1 field.2) r.headers} else .error .assertion) := by
  induction rows generalizing r with
  | nil => exact ⟨fun starved => absurd starved fed_nothing,fun _ => rfl⟩
  | cons row rest ih =>
    rw [List.map_cons,HttpClient.readHeaderLines]
    cases row with
    | bare text unmarked =>
      have missing : find? (ascii ":") (Row.bare text unmarked).text = none := find?_absent unmarked
      rw [missing]
      exact ⟨fun starved => absurd starved (fed_bare text unmarked rest),fun _ => rfl⟩
    | field name spaces value unmarked =>
      obtain ⟨found,key,throws,cuts⟩ := colon_cut unmarked (List.replicate spaces 32++value)
      rw [Row.text,found,starved_field]
      dsimp only
      rw [key]
      by_cases empty : List.replicate spaces 32++value = []
      · rw [throws empty]
        exact ⟨fun _ => rfl,fun fed => absurd (.inl empty) fed⟩
      · rw [cuts empty,or_iff_right empty]
        exact ih _

-- Fields put into a map one after another: the last one with a key counts.
theorem inserted_lookup (fields : List (Bytes × Bytes)) (headers : Headers) (key : Bytes) :
    (fields.foldl (fun held field => held.insert field.1 field.2) headers)[key]? =
      (fields.reverse++headers.toList).lookup key := by
  induction fields generalizing headers with
  | nil =>
    rw [List.foldl_nil,List.reverse_nil,List.nil_append,toList_lookup]
  | cons field rest ih =>
    rw [List.foldl_cons,ih,List.reverse_cons,List.append_assoc,List.lookup_append,List.lookup_append,toList_lookup,
      insert_lookup,List.singleton_append,lookup_first,toList_lookup]

def lowered (fields : List (Bytes × Bytes)) : List (Bytes × Bytes) := fields.map fun field => (string2Lower field.1,field.2)

theorem mem_ranked {α : Type} (last : Bool) (held block : List α) (a : α) :
    a ∈ ranked last held block ↔ a ∈ block ∨ a ∈ held := by
  cases last with
  | true => exact List.mem_append.trans (or_congr_left List.mem_reverse)
  | false => exact List.mem_append.trans or_comm

theorem map_ranked {α β : Type} (f : α → β) (last : Bool) (held block : List α) :
    (ranked last held block).map f = ranked last (held.map f) (block.map f) := by
  cases last with
  | true =>
    unfold ranked
    rw [if_pos rfl,if_pos rfl,List.map_append,List.map_reverse]
  | false => exact List.map_append

theorem pairwise_ranked {α : Type} {R : α → α → Prop} (symmetric : ∀ a b, R a b → R b a) {held block : List α}
    (before : held.Pairwise R) (inside : block.Pairwise R) (across : ∀ a ∈ block, ∀ b ∈ held, R b a) (last : Bool) :
    (ranked last held block).Pairwise R := by
  cases last with
  | true =>
    refine List.pairwise_append.mpr ⟨?_,before,fun a member b known => ?_⟩
    case refine_2 => exact symmetric b a (across a (List.mem_reverse.mp member) b known)
    exact List.pairwise_reverse.mpr (inside.imp fun related => symmetric _ _ related)
  | false => exact List.pairwise_append.mpr ⟨before,inside,fun b known a member => across a member b known⟩

-- Of a name that only one line of the block has, in whatever case, this line
-- counts.
theorem counts_single {held block : List (Bytes × Bytes)} (once : ((lowered block).map Prod.fst).Nodup)
    (fresh : ∀ field ∈ block, ∀ header ∈ held, string2Lower header.1 ≠ string2Lower field.1) (last : Bool)
    (named : name ∈ (lowered block).map Prod.fst) (value : Bytes) :
    Counts (ranked last held block) name value ↔ (name,value) ∈ lowered block := by
  obtain ⟨⟨lower,text⟩,member,rfl⟩ := List.mem_map.mp named
  obtain ⟨field,inBlock,same⟩ := List.mem_map.mp member
  cases same
  -- what the lookup finds is no header that was there before
  have found : ∀ {key text}, string2Lower key = string2Lower field.1 → (ranked last held block).lookup key = some text →
      (key,text) ∈ block := by
    intro key text lower found
    obtain ⟨front,back,shape,-⟩ := List.lookup_eq_some_iff.mp found
    have listed : (key,text) ∈ ranked last held block := by simp [shape]
    exact ((mem_ranked last held block (key,text)).mp listed).resolve_right fun known => fresh field inBlock (key,text) known lower
  constructor
  · rintro ⟨key,lower,shows⟩
    exact List.mem_map.mpr ⟨(key,value),found lower shows,by rw [lower]⟩
  · intro listed
    obtain ⟨⟨key,text⟩,there,shape⟩ := List.mem_map.mp listed
    obtain ⟨lower,rfl⟩ := Prod.mk.inj shape
    have keyed : (ranked last held block).lookup key ≠ none := by
      intro missing
      have absent := List.lookup_eq_none_iff.mp missing (key,text) ((mem_ranked last held block _).mpr (.inl there))
      simp at absent
    obtain ⟨other,shows⟩ := Option.ne_none_iff_exists'.mp keyed
    have twin := List.mem_map_of_mem (f:=fun field : Bytes × Bytes => (string2Lower field.1,field.2)) (found lower shows)
    have alike := List.inj_on_of_nodup_map once twin (List.mem_map_of_mem there) rfl
    have texts : other = text := congrArg Prod.snd alike
    exact ⟨key,lower,texts ▸ shows⟩

theorem respelled_names (respelled : List.Forall₂ Respelled rows others) :
    (lowered (fields rows)).map Prod.fst = (lowered (fields others)).map Prod.fst := by
  induction respelled with
  | nil => rfl
  | cons first _ ih =>
    cases first with
    | bare text unmarked => rfl
    | field name other spaces room value unmarked clear same => exact congrArg₂ List.cons same ih

-- A value that is there loses one space, or its first byte.
theorem cut_spaces (value : Bytes) (filled : List.replicate spaces 32++value ≠ []) (also : List.replicate room 32++value ≠ []) :
    (List.replicate spaces 32++value).drop 1 = (List.replicate room 32++value).drop 1 ↔ spaces = room := by
  constructor
  · intro same
    have size := congrArg List.length same
    have long := List.length_pos_iff.mpr filled
    have longAlso := List.length_pos_iff.mpr also
    simp only [List.length_drop,List.length_append,List.length_replicate] at size long longAlso
    omega
  · rintro rfl
    rfl

-- The same set of fields in lists that have the same names, each once, in the
-- same places.
theorem same_members {one two : List (Bytes × Bytes)} (names : one.map Prod.fst = two.map Prod.fst)
    (distinct : (one.map Prod.fst).Nodup) : (∀ name value : Bytes, (name,value) ∈ one ↔ (name,value) ∈ two) ↔ one = two := by
  constructor
  · intro same
    apply List.ext_getElem (by simpa using congrArg List.length names)
    intro place inOne inTwo
    have listed := (same one[place].1 one[place].2).mp (List.getElem_mem inOne)
    obtain ⟨found,inside,shape⟩ := List.getElem_of_mem listed
    have first : two[found].1 = two[place].1 := by
      have here := List.getElem_of_eq names (i := place) (by simpa using inOne)
      rw [shape]
      simpa using here
    rw [names] at distinct
    have insideNames : found < (two.map Prod.fst).length := by simpa using inside
    have placeNames : place < (two.map Prod.fst).length := by simpa using inTwo
    have equal : (two.map Prod.fst)[found] = (two.map Prod.fst)[place] := by simpa using first
    have position := distinct.getElem_inj_iff.mp equal
    subst position
    exact shape.symm
  · rintro rfl name value
    exact Iff.rfl

theorem lowered_cons (spaces : Nat) (value : Bytes) (unmarked : 58 ∉ name) (rest : List Row) :
    lowered (fields (.field name spaces value unmarked::rest)) =
      (string2Lower name,(List.replicate spaces 32++value).drop 1)::lowered (fields rest) := rfl

theorem lowered_spacing (respelled : List.Forall₂ Respelled rows others) (fed : ¬ Starved rows) (also : ¬ Starved others) :
    lowered (fields rows) = lowered (fields others) ↔ spacing rows = spacing others := by
  induction respelled with
  | nil => exact iff_of_true rfl rfl
  | cons first rest ih =>
    cases first with
    | bare text unmarked => exact iff_of_true rfl rfl
    | field name other spaces room value unmarked clear same =>
      rw [starved_field,not_or] at fed also
      have later := ih fed.2 also.2
      have cut := cut_spaces value fed.1 also.1
      rw [lowered_cons,lowered_cons,List.cons_eq_cons,Prod.mk.injEq,later,cut,and_iff_right same]
      exact List.cons_eq_cons.symm

theorem lowered_once (rows : List Row) :
    (lowered (fields rows)).map Prod.fst = (counted rows).map fun field => string2Lower field.1 := by
  unfold lowered fields
  rw [List.map_map,List.map_map]
  rfl

theorem single_fresh (single : Single held rows) :
    ∀ field ∈ fields rows, ∀ header ∈ held.toList, string2Lower header.1 ≠ string2Lower field.1 := by
  intro field member header known
  obtain ⟨whole,counts,rfl⟩ := List.mem_map.mp member
  exact single.fresh whole counts header known

theorem single_respelled (respelled : List.Forall₂ Respelled rows others) (single : Single held rows) :
    Single held others := by
  have names := respelled_names respelled
  rw [lowered_once,lowered_once] at names
  refine ⟨names ▸ single.once,fun field member header known same => ?_⟩
  have named : string2Lower field.1 ∈ (counted others).map fun field => string2Lower field.1 := List.mem_map_of_mem member
  rw [← names] at named
  obtain ⟨twin,counts,lower⟩ := List.mem_map.mp named
  exact single.fresh twin counts header known (same.trans lower.symm)

-- Where no name is repeated, the fields that count are the same only with the
-- same spaces.
theorem values_spacing (respelled : List.Forall₂ Respelled rows others) (single : Single held rows) (last : Bool)
    (fed : ¬ Starved rows) (also : ¬ Starved others)
    (values : ∀ name value : Bytes, Counts (ranked last held.toList (fields rows)) name value ↔
      Counts (ranked last held.toList (fields others)) name value) : spacing rows = spacing others := by
  have names := respelled_names respelled
  have distinct : ((lowered (fields rows)).map Prod.fst).Nodup := lowered_once rows ▸ single.once
  have singleOther := single_respelled respelled single
  have apart : ((lowered (fields others)).map Prod.fst).Nodup := lowered_once others ▸ singleOther.once
  rw [← lowered_spacing respelled fed also,← same_members names distinct]
  intro name value
  by_cases named : name ∈ (lowered (fields rows)).map Prod.fst
  · have first := counts_single distinct (single_fresh single) last named value
    have second := counts_single apart (single_fresh singleOther) last (names ▸ named) value
    exact first.symm.trans ((values name value).trans second)
  · exact iff_of_false (fun listed => named (List.mem_map_of_mem listed))
      fun listed => named (names ▸ List.mem_map_of_mem (f:=Prod.fst) listed)

-- The value that the first line with some spelling of a name has, past the
-- spellings that have been there.
def CountsPast (spelled : Line → Bytes) (front listed : List Line) (name value : Bytes) : Prop :=
  ∃ key, string2Lower key = name ∧ (∀ earlier ∈ front, spelled earlier ≠ key) ∧
    (listed.map fun line => (spelled line,line.value)).lookup key = some value

theorem countsPast_cons (spelled : Line → Bytes) (front : List Line) (line : Line) (rest : List Line) :
    CountsPast spelled front (line::rest) name value ↔
      (string2Lower (spelled line) = name ∧ line.value = value ∧ ¬ ∃ earlier ∈ front, spelled earlier = spelled line) ∨
        CountsPast spelled (line::front) rest name value := by
  unfold CountsPast
  simp only [List.map_cons,lookup_first]
  constructor
  · rintro ⟨key,lower,past,found⟩
    split at found
    · rename_i same
      subst same
      exact .inl ⟨lower,Option.some.inj found,fun ⟨earlier,member,again⟩ => past earlier member again⟩
    · rename_i different
      refine .inr ⟨key,lower,?_,found⟩
      intro earlier member
      rcases List.mem_cons.mp member with rfl | behind
      · exact fun same => different same.symm
      · exact past earlier behind
  · rintro (⟨lower,same,first⟩ | ⟨key,lower,past,found⟩)
    · exact ⟨spelled line,lower,fun earlier member again => first ⟨earlier,member,again⟩,by rw [if_pos rfl,same]⟩
    · refine ⟨key,lower,fun earlier member => past earlier (List.mem_cons_of_mem _ member),?_⟩
      rw [if_neg fun same => past line List.mem_cons_self same.symm]
      exact found

theorem counts_firsts (alike : ∀ line ∈ listed, string2Lower line.name = string2Lower line.other)
    (firsts : SameFirsts front listed) (name value : Bytes) :
    CountsPast Line.name front listed name value ↔ CountsPast Line.other front listed name value := by
  induction listed generalizing front with
  | nil =>
    constructor
    · rintro ⟨key,-,-,never⟩
      cases never
    · rintro ⟨key,-,-,never⟩
      cases never
  | cons line rest ih =>
    obtain ⟨head,behind⟩ := firsts
    rw [countsPast_cons,countsPast_cons,ih (fun other member => alike other (List.mem_cons_of_mem _ member)) behind,
      alike line List.mem_cons_self,head]

theorem counts_past (spelled : Line → Bytes) (listed : List Line) :
    Counts (listed.map fun line => (spelled line,line.value)) name value ↔ CountsPast spelled [] listed name value := by
  unfold Counts CountsPast
  simp

theorem lines_fields (respelled : List.Forall₂ Respelled rows others) :
    fields rows = (lines rows others).map fun line => (line.name,line.value) := by
  induction respelled with
  | nil => rfl
  | cons first _ ih =>
    cases first with
    | bare text unmarked => rfl
    | field name other spaces room value unmarked clear same => exact congrArg₂ List.cons rfl ih

theorem lines_others (respelled : List.Forall₂ Respelled rows others) (spaces : spacing rows = spacing others) :
    fields others = (lines rows others).map fun line => (line.other,line.value) := by
  induction respelled with
  | nil => rfl
  | cons first _ ih =>
    cases first with
    | bare text unmarked => rfl
    | field name other spaces room value unmarked clear same =>
      obtain ⟨rfl,rest⟩ := List.cons_eq_cons.mp spaces
      exact congrArg₂ List.cons rfl (ih rest)

theorem lines_lower (respelled : List.Forall₂ Respelled rows others) :
    ∀ line ∈ lines rows others, string2Lower line.name = string2Lower line.other := by
  induction respelled with
  | nil =>
    intro line never
    cases never
  | cons first _ ih =>
    cases first with
    | bare text unmarked =>
      intro line never
      cases never
    | field name other spaces room value unmarked clear same =>
      intro line member
      rcases List.mem_cons.mp member with rfl | behind
      · exact same
      · exact ih line behind

theorem holding_spelled (held : Headers) (spelled : Line → Bytes) (same : ∀ name value, spelled ⟨name,name,value⟩ = name) :
    (holding held).map (fun line => (spelled line,line.value)) = held.toList := by
  unfold holding
  rw [List.map_map]
  refine (List.map_congr_left fun header _ => ?_).trans (List.map_id _)
  exact Prod.ext (same header.1 header.2) rfl

theorem ranked_spelled (spelled : Line → Bytes) (same : ∀ name value, spelled ⟨name,name,value⟩ = name) (last : Bool)
    (block : List Line) : ranked last held.toList (block.map fun line => (spelled line,line.value)) =
      (ranked last (holding held) block).map fun line => (spelled line,line.value) := by
  rw [map_ranked,holding_spelled held spelled same]

-- All lengths are n, and there is one or n is the length before.
theorem givenLength_all {n : Int} {given : List (Bytes × Bytes)}
    (all : ∀ field ∈ given, field.1 = ascii "Content-Length" → atoi field.2 = n)
    (one : length = n ∨ ∃ field ∈ given, field.1 = ascii "Content-Length") : givenLength length given = n := by
  induction given generalizing length with
  | nil => exact one.resolve_right fun ⟨field,never,_⟩ => by cases never
  | cons field rest ih =>
    have behind : ∀ field ∈ rest, field.1 = ascii "Content-Length" → atoi field.2 = n :=
      fun field member => all field (List.mem_cons_of_mem _ member)
    rw [givenLength,List.foldl_cons]
    by_cases named : field.1 = ascii "Content-Length"
    · rw [if_pos named]
      exact ih behind (.inl (all field List.mem_cons_self named))
    · rw [if_neg named]
      refine ih behind (one.imp_right ?_)
      rintro ⟨field,member,also⟩
      rcases List.mem_cons.mp member with rfl | later
      · exact absurd also named
      · exact ⟨field,later,also⟩

-- The last line that is spelled literally so decides, whatever length was before.
theorem givenLength_last {block : List Line} (same : SameLast block) :
    ((∃ line ∈ block, line.name = ascii "Content-Length") ↔ ∃ line ∈ block, line.other = ascii "Content-Length") ∧
    ((∃ line ∈ block, line.name = ascii "Content-Length") → ∀ one two,
      givenLength one (block.map fun line => (line.name,line.value)) =
        givenLength two (block.map fun line => (line.other,line.value))) := by
  induction block with
  | nil => exact ⟨by simp,by simp⟩
  | cons line rest ih =>
    obtain ⟨here,behind⟩ := same
    obtain ⟨both,decides⟩ := ih behind
    by_cases later : ∃ line ∈ rest, line.name = ascii "Content-Length"
    · have also := both.mp later
      refine ⟨iff_of_true ?_ ?_,fun _ one two => decides later _ _⟩
      · exact later.imp fun line there => ⟨List.mem_cons_of_mem _ there.1,there.2⟩
      · exact also.imp fun line there => ⟨List.mem_cons_of_mem _ there.1,there.2⟩
    · have neither := fun also => later (both.mpr also)
      have none : ∀ line ∈ rest, line.name ≠ ascii "Content-Length" := fun line member named => later ⟨line,member,named⟩
      have noOther : ∀ line ∈ rest, line.other ≠ ascii "Content-Length" := fun line member named => neither ⟨line,member,named⟩
      rw [and_iff_left none,and_iff_left noOther] at here
      simp only [List.exists_mem_cons_iff,or_iff_left later,or_iff_left neither]
      refine ⟨here,fun named one two => ?_⟩
      have keeps : givenLength (atoi line.value) (rest.map fun line => (line.name,line.value)) = atoi line.value :=
        givenLength_all (List.forall_mem_map.mpr fun line member named => absurd named (none line member)) (.inl rfl)
      have keepsOther : givenLength (atoi line.value) (rest.map fun line => (line.other,line.value)) = atoi line.value :=
        givenLength_all (List.forall_mem_map.mpr fun line member named => absurd named (noOther line member)) (.inl rfl)
      rw [List.map_cons,List.map_cons,givenLength,givenLength,List.foldl_cons,List.foldl_cons,if_pos named,if_pos (here.mp named)]
      exact keeps.trans keepsOther.symm

theorem lengths_last {block : List Line} (same : SameLast block) (length : Int) :
    givenLength length (block.map fun line => (line.name,line.value)) =
      givenLength length (block.map fun line => (line.other,line.value)) := by
  obtain ⟨both,decides⟩ := givenLength_last same
  by_cases named : ∃ line ∈ block, line.name = ascii "Content-Length"
  · exact decides named length length
  · have neither := fun also => named (both.mpr also)
    rw [givenLength_all (n:=length) (List.forall_mem_map.mpr fun line member here => absurd ⟨line,member,here⟩ named) (.inl rfl),
      givenLength_all (n:=length) (List.forall_mem_map.mpr fun line member here => absurd ⟨line,member,here⟩ neither) (.inl rfl)]

-- The spellings decide.
theorem SpelledAlike.alike (respelled : List.Forall₂ Respelled rows others)
    (spelled : SpelledAlike compared length held last rows others) : Alike compared length held last rows others := by
  refine ⟨spelled.starved,fun fed goesOn => ?_,fun fed goesOn name value => ?_⟩
  · rw [lines_fields respelled,lines_others respelled (spelled.spaces fed goesOn)]
    rcases spelled.lengths fed goesOn with same | before
    · exact lengths_last same length
    · rw [givenLength_all (n:=length) (List.forall_mem_map.mpr fun line member here => before line member (.inl here)) (.inl rfl),
        givenLength_all (n:=length) (List.forall_mem_map.mpr fun line member here => before line member (.inr here)) (.inl rfl)]
  · rw [lines_fields respelled,lines_others respelled (spelled.spaces fed goesOn),
      ranked_spelled Line.name (fun _ _ => rfl),ranked_spelled Line.other (fun _ _ => rfl),counts_past,counts_past]
    refine counts_firsts (fun line member => ?_) (spelled.firsts fed goesOn) name value
    rcases (mem_ranked _ _ _ _).mp member with inBlock | before
    · exact lines_lower respelled line inBlock
    · obtain ⟨header,-,rfl⟩ := List.mem_map.mp before
      rfl

theorem sameLast_each {block : List Line} (each : ∀ line ∈ block,
    line.name = ascii "Content-Length" ↔ line.other = ascii "Content-Length") : SameLast block := by
  induction block with
  | nil => trivial
  | cons line rest ih =>
    have behind : ∀ line ∈ rest, line.name = ascii "Content-Length" ↔ line.other = ascii "Content-Length" :=
      fun line member => each line (List.mem_cons_of_mem _ member)
    refine ⟨and_congr (each line List.mem_cons_self) ?_,ih behind⟩
    exact forall₂_congr fun later member => not_congr (behind later member)

theorem sameFirsts_each {front listed : List Line}
    (across : ∀ line ∈ listed, ∀ earlier ∈ front, earlier.name = line.name ↔ earlier.other = line.other)
    (each : listed.Pairwise fun earlier line => earlier.name = line.name ↔ earlier.other = line.other) :
    SameFirsts front listed := by
  induction listed generalizing front with
  | nil => trivial
  | cons line rest ih =>
    obtain ⟨here,behind⟩ := List.pairwise_cons.mp each
    refine ⟨exists_congr fun earlier => and_congr_right fun member => across line List.mem_cons_self earlier member,ih ?_ behind⟩
    intro later member earlier before
    rcases List.mem_cons.mp before with rfl | inFront
    · exact here later member
    · exact across later (List.mem_cons_of_mem _ member) earlier inFront

theorem lines_once (respelled : List.Forall₂ Respelled rows others) (single : Single held rows) :
    ((lines rows others).map fun line => string2Lower line.name).Nodup := by
  have once := single.once
  rw [← lowered_once,lines_fields respelled,lowered,List.map_map,List.map_map] at once
  exact once

theorem lines_fresh (respelled : List.Forall₂ Respelled rows others) (single : Single held rows) :
    ∀ line ∈ lines rows others, ∀ before ∈ holding held, string2Lower before.name ≠ string2Lower line.name := by
  intro line member before known
  obtain ⟨header,there,rfl⟩ := List.mem_map.mp known
  have field := List.mem_map_of_mem (f:=fun line : Line => (line.name,line.value)) member
  rw [← lines_fields respelled] at field
  exact single_fresh single _ field header there

-- Two lines with different names share no spelling.
theorem apart_names {one two : Line} (lower : string2Lower one.name = string2Lower one.other)
    (lowerAlso : string2Lower two.name = string2Lower two.other) (apart : string2Lower one.name ≠ string2Lower two.name) :
    one.name = two.name ↔ one.other = two.other := by
  refine iff_of_false (fun same => apart (congrArg string2Lower same)) fun same => apart ?_
  rw [lower,lowerAlso,same]

theorem firsts_single (respelled : List.Forall₂ Respelled rows others) (single : Single held rows) (last : Bool) :
    SameFirsts [] (ranked last (holding held) (lines rows others)) := by
  have lower := lines_lower respelled
  have known : ∀ before ∈ holding held, before.name = before.other := by
    intro before member
    obtain ⟨header,-,rfl⟩ := List.mem_map.mp member
    rfl
  apply sameFirsts_each
  · intro line _ earlier never
    cases never
  · refine pairwise_ranked (fun _ _ same => eq_comm.trans (same.trans eq_comm)) ?_ ?_ ?_ last
    · apply List.pairwise_of_forall_mem_list
      intro one oneHeld two twoHeld
      rw [known one oneHeld,known two twoHeld]
    · refine (List.pairwise_map.mp (lines_once respelled single)).imp_of_mem ?_
      exact fun oneIn twoIn apart => apart_names (lower _ oneIn) (lower _ twoIn) apart
    · intro line inBlock before there
      refine apart_names (congrArg string2Lower (known before there)) (lower line inBlock) ?_
      exact lines_fresh respelled single line inBlock before there

-- A number under the one line of that name can only be read from both blocks.
theorem literal_both {spelled also : Line → Bytes} {line : Line} {block : List Line} (member : line ∈ block)
    (only : ∀ other ∈ block, spelled other = ascii "Content-Length" ∨ also other = ascii "Content-Length" → other = line)
    (same : givenLength length (block.map fun line => (spelled line,line.value)) =
      givenLength length (block.map fun line => (also line,line.value)))
    (number : atoi line.value ≠ length) (literal : spelled line = ascii "Content-Length") :
    also line = ascii "Content-Length" := by
  by_contra unread
  apply number
  calc atoi line.value = givenLength length (block.map fun line => (spelled line,line.value)) := (givenLength_all
        (List.forall_mem_map.mpr fun other there named => by rw [only other there (.inl named)])
        (.inr ⟨_,List.mem_map_of_mem member,literal⟩)).symm
    _ = givenLength length (block.map fun line => (also line,line.value)) := same
    _ = length := givenLength_all (List.forall_mem_map.mpr fun other there named =>
        absurd (only other there (.inr named) ▸ named) unread) (.inl rfl)

theorem lengths_single (respelled : List.Forall₂ Respelled rows others) (single : Single held rows)
    (same : givenLength length ((lines rows others).map fun line => (line.name,line.value)) =
      givenLength length ((lines rows others).map fun line => (line.other,line.value))) :
    SameLast (lines rows others) ∨ ∀ line ∈ lines rows others,
      line.name = ascii "Content-Length" ∨ line.other = ascii "Content-Length" → atoi line.value = length := by
  by_cases before : ∀ line ∈ lines rows others,
      line.name = ascii "Content-Length" ∨ line.other = ascii "Content-Length" → atoi line.value = length
  · exact .inr before
  · push Not at before
    obtain ⟨line,member,literal,number⟩ := before
    have lower : ∀ line ∈ lines rows others, line.name = ascii "Content-Length" ∨ line.other = ascii "Content-Length" →
        string2Lower line.name = string2Lower (ascii "Content-Length") := by
      rintro line member (named | named)
      · rw [named]
      · rw [lines_lower respelled line member,named]
    have only : ∀ other ∈ lines rows others,
        other.name = ascii "Content-Length" ∨ other.other = ascii "Content-Length" → other = line := by
      intro other there named
      exact List.inj_on_of_nodup_map (lines_once respelled single) there member
        ((lower other there named).trans (lower line member literal).symm)
    refine .inl (sameLast_each fun other there => ⟨fun named => ?_,fun named => ?_⟩)
    · obtain rfl := only other there (.inl named)
      exact literal_both member only same number named
    · obtain rfl := only other there (.inr named)
      exact literal_both member (fun other there named => only other there (Or.symm named)) same.symm number named

-- Where no name is repeated, nothing else does.
theorem Alike.spelled (respelled : List.Forall₂ Respelled rows others) (single : Single held rows)
    (alike : Alike compared length held last rows others) : SpelledAlike compared length held last rows others := by
  have spaces : ¬ Starved rows → compared → spacing rows = spacing others := fun fed goesOn =>
    values_spacing respelled single last fed (fun starved => fed (alike.starved.mpr starved)) (alike.values fed goesOn)
  refine ⟨alike.starved,spaces,fun fed goesOn => ?_,fun _ _ => firsts_single respelled single last⟩
  have lengths := alike.lengths fed goesOn
  rw [lines_fields respelled,lines_others respelled (spaces fed goesOn)] at lengths
  exact lengths_single respelled single lengths

-- What is seen of the lines of a block: no cut fails before the parser goes on
-- or stops.
structure Reads {ε : Type} (throw stop : ε) (compared : Prop) (code length : Int) (held : Headers) (last : Bool)
    (rows : List Row) (result : Except ε Seen) : Prop where
  starved : Starved rows → result = .error throw
  stopped : ¬ Starved rows → ¬ compared → result = .error stop
  fed : ¬ Starved rows → compared → ∃ headers : Headers, result = .ok ⟨code,givenLength length (fields rows),headers⟩ ∧
    ∀ key : Bytes, headers[key]? = (ranked last held.toList (fields rows)).lookup key

theorem held_counts {headers : Headers} {counting : List (Bytes × Bytes)}
    (lookup : ∀ key : Bytes, headers[key]? = counting.lookup key) : Held headers name value ↔ Counts counting name value := by
  unfold Held Counts
  simp only [lookup]

theorem reads_alike {ε : Type} {throw stop : ε} {one two : Except ε Seen} (apart : throw ≠ stop)
    (first : Reads throw stop compared code length held last rows one)
    (second : Reads throw stop compared code length held last others two) :
    SameMeaning one two ↔ Alike compared length held last rows others := by
  by_cases starved : Starved rows
  · rw [first.starved starved]
    by_cases also : Starved others
    · rw [second.starved also]
      exact ⟨fun _ => ⟨iff_of_true starved also,fun fed => absurd starved fed,fun fed => absurd starved fed⟩,fun _ => rfl⟩
    · constructor
      · intro same
        by_cases goesOn : compared
        · obtain ⟨headers,read,-⟩ := second.fed also goesOn
          rw [read] at same
          cases same
        · rw [second.stopped also goesOn] at same
          exact absurd same apart
      · exact fun alike => absurd (alike.starved.mp starved) also
  · by_cases also : Starved others
    · rw [second.starved also]
      constructor
      · intro same
        by_cases goesOn : compared
        · obtain ⟨headers,read,-⟩ := first.fed starved goesOn
          rw [read] at same
          cases same
        · rw [first.stopped starved goesOn] at same
          exact absurd same.symm apart
      · exact fun alike => absurd (alike.starved.mpr also) starved
    · by_cases goesOn : compared
      · obtain ⟨headers,read,lookup⟩ := first.fed starved goesOn
        obtain ⟨headersAlso,readAlso,lookupAlso⟩ := second.fed also goesOn
        rw [read,readAlso]
        constructor
        · rintro ⟨-,lengths,values⟩
          refine ⟨iff_of_false starved also,fun _ _ => lengths,fun _ _ name value => ?_⟩
          exact (held_counts lookup).symm.trans ((values name value).trans (held_counts lookupAlso))
        · intro alike
          refine ⟨rfl,alike.lengths starved goesOn,fun name value => ?_⟩
          exact (held_counts lookup).trans ((alike.values starved goesOn name value).trans (held_counts lookupAlso).symm)
      · rw [first.stopped starved goesOn,second.stopped also goesOn]
        exact ⟨fun _ => ⟨iff_of_false starved also,fun _ yes => absurd yes goesOn,fun _ yes => absurd yes goesOn⟩,
          fun _ => rfl⟩

section server
open HttpRequest

def seen (code : Bool → Int) (read : HttpRequest × Bool) : Seen := ⟨code read.2,read.1.contentLength,read.1.headers⟩

theorem readLines_reads (code : Bool → Int) (request : HttpRequest) (rows : List Row) :
    Reads .outOfRange (.streamer "") True (code (whole rows)) request.contentLength request.headers false rows
      ((request.readLines (rows.map Row.text)).map (seen code)) := by
  obtain ⟨throws,reads⟩ := readLines_rows rows request
  refine ⟨fun starved => ?_,fun _ never => absurd trivial never,fun fed _ => ?_⟩
  · rw [throws starved]
    rfl
  · rw [reads fed,HttpClient.addHeaders_exact]
    refine ⟨_,rfl,fun key => ?_⟩
    rw [storeNew_lookup,ranked,if_neg Bool.false_ne_true,List.lookup_append,toList_lookup]

-- The request lines behind which the other lines are read.
def Titled (firstLine : Bytes) : Prop := ∃ method target versionInfo pos,
  split (ascii " ") firstLine = [method,target,versionInfo] ∧ GoodTarget target ∧
    find? (ascii "HTTP") versionInfo = some pos ∧ pos+5 ≤ versionInfo.length

theorem readTarget_good (good : GoodTarget target) (request : HttpRequest) : ∃ uri params, ∀ versionInfo lines,
    request.readTarget target versionInfo lines = readVersion {request with uri,params} versionInfo lines := by
  obtain ⟨uri,params,ret,ran,bad⟩ := getUriAndParams_defined target request.params
  refine ⟨uri,params,fun versionInfo lines => ?_⟩
  unfold readTarget
  rw [ran,ok_bind]
  exact if_neg fun negative => bad.mp negative good

theorem readTarget_bad (bad : ¬ GoodTarget target) (request : HttpRequest) : ∃ uri params, ∀ versionInfo lines,
    request.readTarget target versionInfo lines = .ok ({request with uri,params},false) := by
  obtain ⟨uri,params,ret,ran,refused⟩ := getUriAndParams_defined target request.params
  refine ⟨uri,params,fun versionInfo lines => ?_⟩
  unfold readTarget
  rw [ran,ok_bind]
  exact if_pos (refused.mpr bad)

theorem readFirstLine_words {method target versionInfo : Bytes}
    (items : split (ascii " ") firstLine = [method,target,versionInfo]) (request : HttpRequest) (lines : List Bytes) :
    request.readFirstLine firstLine lines = readTarget {request with method} target versionInfo lines := by
  unfold readFirstLine
  rw [stringSplit_exact,ok_bind,items]

theorem readFirstLine_titled (titled : Titled firstLine) (request : HttpRequest) : ∃ read : HttpRequest,
    read.headers = request.headers ∧ read.contentLength = request.contentLength ∧
      ∀ lines, request.readFirstLine firstLine lines = read.readLines lines := by
  obtain ⟨method,target,versionInfo,pos,items,good,found,inside⟩ := titled
  obtain ⟨uri,params,reads⟩ := readTarget_good good {request with method}
  refine ⟨{request with method,uri,params,version:=versionInfo.drop (pos+5)},rfl,rfl,fun lines => ?_⟩
  rw [readFirstLine_words items,reads]
  unfold readVersion
  rw [found]
  dsimp only
  rw [substr_ok inside,ok_bind]

-- Any other one is the end of the matter, whatever is behind it.
theorem readFirstLine_untitled (refused : ¬ Titled firstLine) :
    (∀ (request : HttpRequest) lines, request.readFirstLine firstLine lines = .error .outOfRange) ∨
    ∀ (request : HttpRequest) lines, ∃ left : HttpRequest, request.readFirstLine firstLine lines = .ok (left,false) ∧
      left.headers = request.headers ∧ left.contentLength = request.contentLength := by
  by_cases shape : ∃ method target versionInfo, split (ascii " ") firstLine = [method,target,versionInfo]
  · obtain ⟨method,target,versionInfo,items⟩ := shape
    by_cases good : GoodTarget target
    · cases found : find? (ascii "HTTP") versionInfo with
      | none =>
        refine .inr fun request lines => ?_
        obtain ⟨uri,params,reads⟩ := readTarget_good good {request with method}
        refine ⟨{request with method,uri,params},?_,rfl,rfl⟩
        rw [readFirstLine_words items,reads]
        unfold readVersion
        rw [found]
      | some pos =>
        have short : pos+5 > versionInfo.length := by
          by_contra inside
          exact refused ⟨method,target,versionInfo,pos,items,good,found,by omega⟩
        refine .inl fun request lines => ?_
        obtain ⟨uri,params,reads⟩ := readTarget_good good {request with method}
        rw [readFirstLine_words items,reads]
        unfold readVersion
        rw [found]
        dsimp only
        rw [substr,if_pos short,error_bind]
    · refine .inr fun request lines => ?_
      obtain ⟨uri,params,reads⟩ := readTarget_bad good {request with method}
      exact ⟨{request with method,uri,params},by rw [readFirstLine_words items,reads],rfl,rfl⟩
  · refine .inr fun request lines => ⟨request,?_,rfl,rfl⟩
    unfold readFirstLine
    rw [stringSplit_exact,ok_bind]
    split
    · rename_i method target versionInfo items
      exact absurd ⟨method,target,versionInfo,items⟩ shape
    · rfl

-- Two requests with the same headers read the two blocks.
theorem readHeader_alike (code : Bool → Int) (request base : HttpRequest) (headers : base.headers = request.headers)
    (length : base.contentLength = request.contentLength) (respelled : List.Forall₂ Respelled rows others)
    (spelled : split crlf block = firstLine::rows.map Row.text)
    (spelledOther : split crlf otherBlock = firstLine::others.map Row.text) :
    SameMeaning ((request.readHeader block).map (seen code)) ((base.readHeader otherBlock).map (seen code)) ↔
      (Titled firstLine → Alike True request.contentLength request.headers false rows others) := by
  have reads : ∀ (request : HttpRequest) block lines, split crlf block = firstLine::lines →
      request.readHeader block = request.readFirstLine firstLine lines := by
    intro request block lines cut
    unfold readHeader
    rw [stringSplit_exact,ok_bind,cut]
  rw [reads request block _ spelled,reads base otherBlock _ spelledOther]
  by_cases titled : Titled firstLine
  · obtain ⟨one,oneHeaders,oneLength,first⟩ := readFirstLine_titled titled request
    obtain ⟨two,twoHeaders,twoLength,second⟩ := readFirstLine_titled titled base
    have firstReads := readLines_reads code one rows
    have secondReads := readLines_reads code two others
    rw [oneHeaders,oneLength,respelled_whole respelled] at firstReads
    rw [twoHeaders,twoLength,headers,length] at secondReads
    rw [first,second,forall_prop_of_true titled]
    exact reads_alike (by decide) firstReads secondReads
  · refine iff_of_true ?_ fun good => absurd good titled
    rcases readFirstLine_untitled titled with throws | refuses
    · rw [throws,throws]
      rfl
    · obtain ⟨one,first,oneHeaders,oneLength⟩ := refuses request (rows.map Row.text)
      obtain ⟨two,second,twoHeaders,twoLength⟩ := refuses base (others.map Row.text)
      rw [first,second]
      refine ⟨rfl,?_,fun name value => ?_⟩
      · exact oneLength.trans (length.symm.trans twoLength.symm)
      · have same : one.headers = two.headers := oneHeaders.trans (headers.symm.trans twoHeaders.symm)
        unfold seen
        rw [same]

end server

-- The header block that is completed in a text.
def Completes (text block : Bytes) : Prop := ∃ pos, find? blankLine text = some pos ∧ text.take pos = block

def coSeen (analyzed : CoHttpSession × Int) : Seen :=
  ⟨analyzed.2,analyzed.1.request.contentLength,analyzed.1.request.headers⟩
def httpSeen (analyzed : HttpSession × Int) : Seen :=
  ⟨analyzed.2,analyzed.1.request.contentLength,analyzed.1.request.headers⟩
def clientSeen (r : HttpClientResponse) : Seen := ⟨0,r.contentLength,r.headers⟩

theorem coAnalyzeHeader_seen {s : CoHttpSession} (waiting : s.headerIsReady = false)
    (completes : Completes (s.headerData++data) block) : (s.analyzeHeader data).map coSeen =
      (HttpRequest.readHeader {headerData:=block} block).map (seen fun accepted => if accepted then 1 else -1) := by
  obtain ⟨pos,found,rfl⟩ := completes
  unfold CoHttpSession.analyzeHeader
  rw [if_neg (by simp [waiting])]
  dsimp only
  rw [found]
  dsimp only
  cases HttpRequest.readHeader {headerData:=(s.headerData++data).take pos} ((s.headerData++data).take pos) <;> rfl

theorem httpAnalyzeHeader_seen {s : HttpSession} (completes : Completes s.headerData block) :
    s.analyzeHeader.map httpSeen =
      (s.request.readHeader block).map (seen fun accepted => if accepted then 0 else -1) := by
  obtain ⟨pos,found,rfl⟩ := completes
  unfold HttpSession.analyzeHeader
  rw [found]
  dsimp only
  cases s.request.readHeader (s.headerData.take pos) <;> rfl

theorem readHeaderLines_reads (r : HttpClientResponse) (rows : List Row) :
    Reads (.thrown .outOfRange) HttpClient.Stop.assertion (whole rows = true) 0 r.contentLength r.headers true rows
      ((HttpClient.readHeaderLines r (rows.map Row.text)).map clientSeen) := by
  obtain ⟨throws,reads⟩ := readHeaderLines_rows rows r
  refine ⟨fun starved => ?_,fun fed part => ?_,fun fed all => ?_⟩
  · rw [throws starved]
    rfl
  · rw [reads fed,if_neg part]
    rfl
  · rw [reads fed,if_pos all]
    exact ⟨_,rfl,fun key => inserted_lookup _ _ key⟩

theorem readResponse_alike (r : HttpClientResponse) (respelled : List.Forall₂ Respelled rows others)
    (spelled : split crlf block = firstLine::rows.map Row.text)
    (spelledOther : split crlf otherBlock = firstLine::others.map Row.text) :
    SameMeaning ((HttpClient.readResponse r block).map clientSeen) ((HttpClient.readResponse r otherBlock).map clientSeen) ↔
      (HttpClient.StatusLineOk firstLine → Alike (whole rows = true) r.contentLength r.headers true rows others) := by
  unfold HttpClient.readResponse
  rw [spelled,spelledOther]
  dsimp only
  cases status : HttpClient.readStatusLine r firstLine with
  | error stop =>
    refine iff_of_true rfl fun good => ?_
    obtain ⟨next,read⟩ := (HttpClient.readStatusLine_defined r firstLine).mpr good
    rw [status] at read
    cases read
  | ok named =>
    obtain ⟨headers,-,-,length⟩ := HttpClient.Reply.readStatusLine_keeps status
    have first := readHeaderLines_reads named rows
    have second := readHeaderLines_reads named others
    rw [headers,length] at first second
    rw [← respelled_whole respelled] at second
    rw [forall_prop_of_true ((HttpClient.readStatusLine_defined r firstLine).mp ⟨named,status⟩),ok_bind,ok_bind]
    exact reads_alike (by decide) first second

-- What a parser that reaches the lines makes of two spellings: the same is enough
-- in any case, and needed where no name is repeated.
structure Settled (same reached compared : Prop) (length : Int) (held : Headers) (last : Bool) (rows others : List Row) :
    Prop where
  enough : (reached → SpelledAlike compared length held last rows others) → same
  needed : Single held rows → same → reached → SpelledAlike compared length held last rows others
  exactly : same ↔ (reached → Alike compared length held last rows others)

theorem settled (respelled : List.Forall₂ Respelled rows others)
    (exactly : same ↔ (reached → Alike compared length held last rows others)) :
    Settled same reached compared length held last rows others := by
  refine ⟨fun spelled => ?_,fun single meaning titled => ?_,exactly⟩
  · exact exactly.mpr fun titled => (spelled titled).alike respelled
  · exact (exactly.mp meaning titled).spelled respelled single

-- Two blocks with one first line, whose other lines differ in their spelling only.
-- The sessions that read them are in the same state up to the bytes received.
theorem spelling_iff (firstLine block otherBlock : Bytes) (rows others : List Row)
    (respelled : List.Forall₂ Respelled rows others) (spelled : split crlf block = firstLine::rows.map Row.text)
    (spelledOther : split crlf otherBlock = firstLine::others.map Row.text) :
    (∀ (s t : CoHttpSession) (data more : Bytes), s.headerIsReady = false → t.headerIsReady = false →
      Completes (s.headerData++data) block → Completes (t.headerData++more) otherBlock →
      Settled (SameMeaning ((s.analyzeHeader data).map coSeen) ((t.analyzeHeader more).map coSeen)) (Titled firstLine)
        True 0 {} false rows others) ∧
    (∀ s t : HttpSession, t.request = s.request → Completes s.headerData block → Completes t.headerData otherBlock →
      Settled (SameMeaning (s.analyzeHeader.map httpSeen) (t.analyzeHeader.map httpSeen)) (Titled firstLine)
        True s.request.contentLength s.request.headers false rows others) ∧
    ∀ r : HttpClientResponse,
      Settled (SameMeaning ((HttpClient.readResponse r block).map clientSeen)
          ((HttpClient.readResponse r otherBlock).map clientSeen)) (HttpClient.StatusLineOk firstLine)
        (whole rows = true) r.contentLength r.headers true rows others := by
  refine ⟨?_,?_,fun r => settled respelled (readResponse_alike r respelled spelled spelledOther)⟩
  · intro s t data more waiting also completes completesOther
    rw [coAnalyzeHeader_seen waiting completes,coAnalyzeHeader_seen also completesOther]
    have alike := readHeader_alike (fun accepted => if accepted then 1 else -1) {headerData:=block}
      {headerData:=otherBlock} rfl rfl respelled spelled spelledOther
    exact settled respelled alike
  · intro s t same completes completesOther
    rw [httpAnalyzeHeader_seen completes,httpAnalyzeHeader_seen completesOther]
    exact settled respelled
      (readHeader_alike _ s.request t.request (by rw [same]) (by rw [same]) respelled spelled spelledOther)

def getBlock (rows : List Row) : Bytes := crlf.intercalate (ascii "GET /a HTTP/1.1"::rows.map Row.text)
def okBlock (rows : List Row) : Bytes := crlf.intercalate (ascii "HTTP/1.1 200 OK"::rows.map Row.text)

def hostRow : Row := .field (ascii "Host") 2 (ascii "a") (by decide)
def shoutedRow : Row := .field (ascii "HOST") 2 (ascii "a") (by decide)
def lengthRow : Row := .field (ascii "Content-Length") 1 (ascii "5") (by decide)
def lowerRow : Row := .field (ascii "content-length") 1 (ascii "5") (by decide)

theorem host_alike :
    SameMeaning ((({} : CoHttpSession).analyzeHeader (getBlock [hostRow,lengthRow]++blankLine)).map coSeen)
      ((({} : CoHttpSession).analyzeHeader (getBlock [shoutedRow,lengthRow]++blankLine)).map coSeen) ∧
    SameMeaning ((HttpSession.analyzeHeader {headerData:=getBlock [hostRow,lengthRow]++blankLine}).map httpSeen)
      ((HttpSession.analyzeHeader {headerData:=getBlock [shoutedRow,lengthRow]++blankLine}).map httpSeen) ∧
    SameMeaning ((HttpClient.readResponse {} (okBlock [hostRow,lengthRow])).map clientSeen)
      ((HttpClient.readResponse {} (okBlock [shoutedRow,lengthRow])).map clientSeen) := by
  have respelled : List.Forall₂ Respelled [hostRow,lengthRow] [shoutedRow,lengthRow] :=
    .cons (.field _ _ 2 2 _ _ _ (by decide)) (.cons (.field _ _ 1 1 _ _ _ rfl) .nil)
  have alike : ∀ (compared : Prop) last, SpelledAlike compared 0 {} last [hostRow,lengthRow] [shoutedRow,lengthRow] := by
    refine fun compared last => ⟨by decide,fun _ _ => by decide,fun _ _ => .inl (by decide),fun _ _ => ?_⟩
    cases last <;> decide
  have requests := spelling_iff (ascii "GET /a HTTP/1.1") (getBlock [hostRow,lengthRow]) (getBlock [shoutedRow,lengthRow])
    _ _ respelled (by decide +kernel) (by decide +kernel)
  have responses := spelling_iff (ascii "HTTP/1.1 200 OK") (okBlock [hostRow,lengthRow]) (okBlock [shoutedRow,lengthRow])
    _ _ respelled (by decide +kernel) (by decide +kernel)
  have mixed : Completes (getBlock [hostRow,lengthRow]++blankLine) (getBlock [hostRow,lengthRow]) :=
    ⟨44,by decide +kernel,by decide +kernel⟩
  have shouted : Completes (getBlock [shoutedRow,lengthRow]++blankLine) (getBlock [shoutedRow,lengthRow]) :=
    ⟨44,by decide +kernel,by decide +kernel⟩
  refine ⟨?_,?_,?_⟩
  · exact (requests.1 {} {} _ _ rfl rfl mixed shouted).enough fun _ => alike True false
  · exact (requests.2.1 {headerData:=getBlock [hostRow,lengthRow]++blankLine}
      {headerData:=getBlock [shoutedRow,lengthRow]++blankLine} rfl mixed shouted).enough fun _ => alike True false
  · exact (responses.2.2 {}).enough fun _ => alike _ true

theorem different_lengths {ε : Type} {one two : Except ε Seen} (first : (one.toOption.map Seen.length) = some 5)
    (second : (two.toOption.map Seen.length) = some 0) : ¬ SameMeaning one two := by
  intro same
  cases one with
  | error exn => cases first
  | ok one =>
    cases two with
    | error exn => cases second
    | ok two =>
      have lengths := same.2.1
      simp only [Except.toOption,Option.map_some,Option.some.injEq] at first second
      omega

-- A length under a name in lower case is no length to any of the three.
theorem lower_case_unread : List.Forall₂ Respelled [lengthRow] [lowerRow] ∧
    ¬ SameMeaning ((({} : CoHttpSession).analyzeHeader (getBlock [lengthRow]++blankLine)).map coSeen)
      ((({} : CoHttpSession).analyzeHeader (getBlock [lowerRow]++blankLine)).map coSeen) ∧
    ¬ SameMeaning ((HttpSession.analyzeHeader {headerData:=getBlock [lengthRow]++blankLine}).map httpSeen)
      ((HttpSession.analyzeHeader {headerData:=getBlock [lowerRow]++blankLine}).map httpSeen) ∧
    ¬ SameMeaning ((HttpClient.readResponse {} (okBlock [lengthRow])).map clientSeen)
      ((HttpClient.readResponse {} (okBlock [lowerRow])).map clientSeen) := by
  refine ⟨.cons (.field _ _ 1 1 _ _ _ (by decide)) .nil,?_,?_,?_⟩
  · exact different_lengths (by decide +kernel) (by decide +kernel)
  · exact different_lengths (by decide +kernel) (by decide +kernel)
  · exact different_lengths (by decide +kernel) (by decide +kernel)

end CoStream.HttpSpelling
