import CompNet.Lib.Latest
import CompNet.Proxy.Parse

/-!
# The header loop

A key ends at the first colon, so it may span lines; the loop, which goes from
line to line, then sets the rest of such a key again, line by line, with the
same value (`Linked`), up to a blank line inside the key, where it ends.  What
the loop sets is read off the text (`parseHeaders_sets`), and the text that is
printed for a list of headers is followed through the loop
(`parseHeaders_lines`).
-/

namespace CompNet.Proxy

open CompNet.Lib

abbrev Header := Bytes × Bytes

def setHeader (pr : ParsedRequest) (h : Header) : ParsedRequest := parsedHeaderSet pr h.1 h.2

/-! ## Slots -/

theorem parsedHeaderRemove_live (key : Bytes) (slots : List (Option Header)) :
    (parsedHeaderRemove key slots).filterMap id =
      (slots.filterMap id).eraseP (fun old => decide (old.1 = key)) := by
  induction slots with
  | nil => rfl
  | cons slot rest ih =>
      cases slot with
      | none => simpa [parsedHeaderRemove] using ih
      | some h =>
          by_cases same : h.1 = key
          · simp [parsedHeaderRemove, same]
          · simpa [parsedHeaderRemove, same] using ih

theorem setHeader_live (pr : ParsedRequest) (h : Header) :
    (setHeader pr h).liveHeaders = overwrite pr.liveHeaders h := by
  have removed := parsedHeaderRemove_live h.1 pr.headers
  simp only [setHeader, parsedHeaderSet, ParsedRequest.liveHeaders, overwrite,
    List.filterMap_append, removed]
  rfl

theorem setHeader_fields (pr : ParsedRequest) (h : Header) : (setHeader pr h).fields = pr.fields :=
  rfl

theorem foldl_setHeader_fields (pr : ParsedRequest) (sets : List Header) :
    (sets.foldl setHeader pr).fields = pr.fields := by
  induction sets generalizing pr with
  | nil => rfl
  | cons h rest ih => rw [List.foldl_cons, ih, setHeader_fields]

theorem foldl_setHeader_buf (pr : ParsedRequest) (sets : List Header) :
    (sets.foldl setHeader pr).buf = pr.buf := by
  induction sets generalizing pr with
  | nil => rfl
  | cons h rest ih =>
      rw [List.foldl_cons, ih]
      rfl

/-- The live headers after a sequence of sets on an object without headers. -/
theorem foldl_setHeader_live {pr : ParsedRequest} (empty : pr.headers = []) (sets : List Header) :
    (sets.foldl setHeader pr).liveHeaders = latest sets := by
  have fold : ∀ pr : ParsedRequest,
      (sets.foldl setHeader pr).liveHeaders = sets.foldl overwrite pr.liveHeaders := by
    induction sets with
    | nil => exact fun _ => rfl
    | cons h rest ih =>
        intro pr
        rw [List.foldl_cons, ih, setHeader_live, List.foldl_cons]
  have none : pr.liveHeaders = [] := by rw [ParsedRequest.liveHeaders, empty]; rfl
  rw [fold, none, foldl_overwrite]

/-! ## One header -/

/-- The header at the head of a text: a key without a colon, and the value two
bytes behind its end, up to the next line end.  The byte between may be
anything, even a NUL. -/
structure HeaderAt (text key value : Bytes) : Prop where
  split : ∃ x more, text = key ++ colon :: x :: (value ++ crlf ++ more)
  key : 0 ∉ key ∧ colon ∉ key
  value : 0 ∉ value ∧ ¬ crlf <:+: value

/-- Where the header loop ends. -/
def EndOfHeaders (text : Bytes) : Prop := (∃ rest, text = 0 :: rest) ∨ crlf <+: text

theorem crlf_prefix_cons {c : UInt8} {rest : Bytes} :
    crlf <+: c :: rest ↔ c = 13 ∧ rest.head? = some 10 := by
  constructor
  · intro given
    rcases given with ⟨tail, whole⟩
    simp only [crlf, List.cons_append, List.nil_append, List.cons.injEq] at whole
    obtain ⟨rfl, rfl⟩ := whole
    exact ⟨rfl, rfl⟩
  · intro given
    rcases given with ⟨rfl, second⟩
    obtain ⟨tail, rfl⟩ := List.head?_eq_some_iff.mp second
    exact ⟨tail, rfl⟩

theorem endOfHeaders_cons {c : UInt8} {rest : Bytes} :
    EndOfHeaders (c :: rest) ↔ c = 0 ∨ (c = 13 ∧ rest.head? = some 10) := by
  rw [EndOfHeaders, crlf_prefix_cons]
  simp

/-- Two readings of one value. -/
theorem value_unique {value value' more more' : Bytes} (fresh : ¬ crlf <:+: value)
    (fresh' : ¬ crlf <:+: value') (same : value ++ crlf ++ more = value' ++ crlf ++ more') :
    value = value' ∧ more = more' := by
  have at_ : strstr crlf (value ++ crlf ++ more) = some value.length := strstr_crlf fresh
  rw [same, strstr_crlf fresh'] at at_
  have length := Option.some.inj at_
  rw [List.append_assoc, List.append_assoc] at same
  obtain ⟨values, rest⟩ := List.append_inj same length.symm
  exact ⟨values, List.append_cancel_left rest⟩

theorem HeaderAt.unique {text key value key' value' : Bytes} (h : HeaderAt text key value)
    (h' : HeaderAt text key' value') : key = key' ∧ value = value' := by
  obtain ⟨x, more, split⟩ := h.split
  obtain ⟨x', more', split'⟩ := h'.split
  have at_ := idxOf?_first (x :: (value ++ crlf ++ more)) h.key.2
  have at_' := idxOf?_first (x' :: (value' ++ crlf ++ more')) h'.key.2
  rw [← split, split', at_'] at at_
  have same := split.symm.trans split'
  obtain ⟨keys, behind⟩ := List.append_inj same (Option.some.inj at_).symm
  have values := (List.cons.inj (List.cons.inj behind).2).2
  exact ⟨keys, (value_unique h.value.2 h'.value.2 values).1⟩

/-- What `ParsedHeader_parse` reads. -/
theorem parsedHeaderParse_reads {pr pr' : ParsedRequest} {text : Bytes}
    (parse : parsedHeaderParse pr text = some (0, pr')) :
    ∃ key value, HeaderAt text key value ∧ pr' = setHeader pr (key, value) := by
  rw [parsedHeaderParse] at parse
  cases read : cstring text with
  | none => simp [read] at parse
  | some str =>
      obtain ⟨cleanStr, post, whole⟩ := cstring_eq_some read
      cases found : str.idxOf? colon with
      | none => simp [read, found] at parse
      | some i =>
          obtain ⟨key, behind, rfl, fresh, rfl⟩ := idxOf?_eq_first found
          obtain ⟨x, tail, next⟩ : ∃ x tail, behind ++ 0 :: post = x :: tail :=
            List.exists_cons_of_ne_nil (by simp)
          have pieces : text = key ++ colon :: x :: tail := by rw [whole, ← next]; simp
          have takeKey : text.take key.length = key := by rw [pieces, List.take_left]
          have dropKey : text.drop (key.length + 2) = tail := by rw [pieces]; simp
          cases readValue : cstring tail with
          | none => simp [read, found, dropKey, readValue] at parse
          | some str' =>
              obtain ⟨cleanValue, post', whole'⟩ := cstring_eq_some readValue
              cases stop : strstr crlf str' with
              | none => simp [read, found, dropKey, readValue, stop] at parse
              | some j =>
                  obtain ⟨value, more, rfl, rfl, freshValue⟩ := strstr_eq_some stop
                  have takeValue : tail.take value.length = value := by
                    rw [whole', List.append_assoc, List.append_assoc, List.take_left]
                  simp only [read, found, dropKey, readValue, stop, takeKey, takeValue,
                    Option.bind_eq_bind, Option.bind_some, Option.some.injEq, Prod.mk.injEq,
                    true_and] at parse
                  refine ⟨key, value, ⟨⟨x, more ++ 0 :: post', ?_⟩, ⟨?_, fresh⟩, ⟨?_, ?_⟩⟩,
                    parse.symm⟩
                  · rw [pieces, whole']
                    simp
                  · exact fun zero => cleanStr (by simp [zero])
                  · exact fun zero => cleanValue (by simp [zero])
                  · exact freshValue (by simp [crlf])

/-! ## Keys that span lines -/

/-- The text behind the first line end. -/
def nextLine (key : Bytes) : Option Bytes := (strstr crlf key).map fun i => key.drop (i + 2)

theorem nextLine_eq_some {key rest : Bytes} (next : nextLine key = some rest) :
    ∃ line, key = line ++ crlf ++ rest ∧ ¬ crlf <:+: line := by
  obtain ⟨i, found, rfl⟩ := Option.map_eq_some_iff.mp next
  obtain ⟨line, rest, rfl, rfl, fresh⟩ := strstr_eq_some found
  refine ⟨line, ?_, fresh (by simp [crlf])⟩
  simp [crlf]

theorem nextLine_eq_none {key : Bytes} (next : nextLine key = none) : ¬ crlf <:+: key :=
  strstr_eq_none (Option.map_eq_none_iff.mp next)

theorem nextLine_length {key rest : Bytes} (next : nextLine key = some rest) :
    rest.length + 2 ≤ key.length := by
  obtain ⟨line, rfl, -⟩ := nextLine_eq_some next
  simp [crlf]

/-- The further lines of a key, and whether a blank line ends them. -/
def keyLines (key : Bytes) : List Bytes × Bool :=
  match _next : nextLine key with
  | none => ([], false)
  | some rest =>
      if crlf.isPrefixOf rest then ([], true)
      else (rest :: (keyLines rest).1, (keyLines rest).2)
termination_by key.length
decreasing_by
  all_goals
    have shorter := nextLine_length _next
    omega

/-- The headers that one header line with a long key sets. -/
def lineSets (h : Header) : List Header := h :: (keyLines h.1).1.map (·, h.2)

/-- Behind a key that spans lines its next line is set with the same value, or,
where that line is blank, nothing is set any more. -/
def Linked : List Header → Prop
  | [] => True
  | h :: rest =>
      (∀ line, nextLine h.1 = some line →
        if crlf.isPrefixOf line then rest = [] else ∃ rest', rest = (line, h.2) :: rest') ∧
      Linked rest

/-- A key and a value as the loop sets them. -/
structure CleanHeader (h : Header) : Prop where
  key : 0 ∉ h.1 ∧ colon ∉ h.1
  starts : ¬ crlf <+: h.1
  value : 0 ∉ h.2 ∧ ¬ crlf <:+: h.2

theorem HeaderAt.str {text str key value : Bytes} (at_ : HeaderAt text key value)
    (read : cstring text = some str) : ∃ behind, str = key ++ colon :: behind := by
  obtain ⟨x, more, whole⟩ := at_.split
  have clean : 0 ∉ key ++ [colon] := by
    rw [List.mem_append, not_or]
    exact ⟨at_.key.1, by decide⟩
  have start : text = (key ++ [colon]) ++ x :: (value ++ crlf ++ more) := by
    rw [whole]
    simp
  rw [start] at read
  obtain ⟨behind, rfl⟩ := cstring_prefix clean read
  exact ⟨behind, by simp⟩

/-- The rest of a key stands at the head of the text behind its first line. -/
theorem HeaderAt.behind {text line rest value : Bytes}
    (at_ : HeaderAt text (line ++ crlf ++ rest) value) :
    HeaderAt (text.drop (line.length + 2)) rest value := by
  obtain ⟨x, more, whole⟩ := at_.split
  refine ⟨⟨x, more, ?_⟩, ⟨fun zero => at_.key.1 (by simp [zero]),
    fun member => at_.key.2 (by simp [member])⟩, at_.value⟩
  rw [whole, List.append_assoc]
  exact List.drop_left' (by simp [crlf])

theorem HeaderAt.endOfHeaders {text key value : Bytes} (at_ : HeaderAt text key value) :
    EndOfHeaders text ↔ crlf <+: key := by
  obtain ⟨x, more, whole⟩ := at_.split
  constructor
  · intro given
    rcases given with ⟨rest, zero⟩ | ⟨rest, starts⟩
    · cases key with
      | nil =>
          rw [zero, List.nil_append] at whole
          exact absurd (List.cons.inj whole).1 (by decide)
      | cons c key =>
          rw [zero, List.cons_append] at whole
          exact absurd (by simp [← (List.cons.inj whole).1]) at_.key.1
    · rw [whole] at starts
      match key with
      | [] => exact absurd (List.cons.inj starts).1 (by decide)
      | [c] => exact absurd (List.cons.inj (List.cons.inj starts).2).1 (by decide)
      | c :: d :: key =>
          simp only [crlf, List.cons_append, List.nil_append, List.cons.injEq] at starts
          exact ⟨key, by simp [crlf, starts.1, starts.2.1]⟩
  · intro given
    rcases given with ⟨rest, rfl⟩
    right
    rw [whole, List.append_assoc]
    exact ⟨_, rfl⟩

theorem exists_cstring {more : Bytes} (ends : 0 ∈ more) :
    ∃ str post, 0 ∉ str ∧ more = str ++ 0 :: post := by
  have read : cstring more = some (more.takeWhile (· != 0)) := if_pos ends
  obtain ⟨clean, post, whole⟩ := cstring_eq_some read
  exact ⟨_, post, clean, whole⟩

/-- A header that a NUL follows is set. -/
theorem parsedHeaderParse_at {pr : ParsedRequest} {text key value more : Bytes} {x : UInt8}
    (split : text = key ++ colon :: x :: (value ++ crlf ++ more)) (cleanKey : 0 ∉ key ∧ colon ∉ key)
    (cleanValue : 0 ∉ value ∧ ¬ crlf <:+: value) (ends : 0 ∈ more) :
    parsedHeaderParse pr text = some (0, setHeader pr (key, value)) := by
  have at_ : HeaderAt text key value := ⟨⟨x, more, split⟩, cleanKey, cleanValue⟩
  have inside : 0 ∈ text := by
    rw [split]
    simp [ends]
  have read : cstring text = some (text.takeWhile (· != 0)) := if_pos inside
  obtain ⟨behind, whole⟩ := at_.str read
  have found := idxOf?_first behind cleanKey.2
  have takeKey : text.take key.length = key := by rw [split, List.take_left]
  have dropKey : text.drop (key.length + 2) = value ++ crlf ++ more := by
    rw [split]
    simp
  obtain ⟨str, post, cleanStr, rfl⟩ := exists_cstring ends
  have readValue : cstring (value ++ crlf ++ (str ++ 0 :: post)) = some (value ++ crlf ++ str) := by
    have cleanAll : 0 ∉ value ++ crlf ++ str := by
      simp [cleanValue.1, cleanStr, crlf]
    rw [← List.append_assoc]
    exact cstring_append cleanAll
  have stop : strstr crlf (value ++ crlf ++ str) = some value.length := strstr_crlf cleanValue.2
  have takeValue : (value ++ crlf ++ (str ++ 0 :: post)).take value.length = value := by simp
  simp only [parsedHeaderParse, read, whole, found, takeKey, dropKey, readValue, stop, takeValue,
    Option.bind_eq_bind, Option.bind_some]
  rfl

/-! ## The loop -/

section

variable {fuel : Nat} {pr pr' : ParsedRequest} {text str key value : Bytes}

theorem parseHeaders_end (nonempty : text ≠ []) (stop : EndOfHeaders text) :
    parseHeaders (fuel + 1) pr text = some (0, pr) := by
  obtain ⟨c, rest, rfl⟩ := List.exists_cons_of_ne_nil nonempty
  rw [parseHeaders, if_pos (endOfHeaders_cons.mp stop)]

/-- One turn of the loop. -/
theorem parseHeaders_turn (more : ¬ EndOfHeaders text)
    (one : parsedHeaderParse pr text = some (0, pr')) (read : cstring text = some str) :
    parseHeaders (fuel + 1) pr text =
      match strstr crlf str with
      | none => some (0, pr')
      | some i => parseHeaders fuel pr' (text.drop (i + 2)) := by
  obtain ⟨c, rest, rfl⟩ : ∃ c rest, text = c :: rest := by
    apply List.exists_cons_of_ne_nil
    rintro rfl
    cases read
  have notEnd : ¬ (c = 0 ∨ (c = 13 ∧ rest.head? = some 10)) :=
    fun stop => more (endOfHeaders_cons.mpr stop)
  simp only [parseHeaders, if_neg notEnd, one, read, ne_eq, not_true_eq_false, if_false]
  cases found : strstr crlf str with
  | none => rfl
  | some i =>
      obtain ⟨line, behind, rfl, rfl, -⟩ := strstr_eq_some found
      have long : ¬ ((line ++ crlf ++ behind).drop line.length).length < 2 := by
        simp [crlf]
      simp only [if_neg long]

/-- A turn of the loop that does not fail reads a header. -/
theorem parseHeaders_turn_cases (parse : parseHeaders (fuel + 1) pr text = some (0, pr')) :
    (EndOfHeaders text ∧ pr' = pr) ∨
      ∃ key value str, ¬ EndOfHeaders text ∧ HeaderAt text key value ∧ cstring text = some str ∧
        ((strstr crlf str = none ∧ pr' = setHeader pr (key, value)) ∨
          ∃ i, strstr crlf str = some i ∧
            parseHeaders fuel (setHeader pr (key, value)) (text.drop (i + 2)) = some (0, pr')) := by
  cases text with
  | nil => cases parse
  | cons c rest =>
      by_cases stop : EndOfHeaders (c :: rest)
      · rw [parseHeaders_end (by simp) stop] at parse
        cases parse
        exact .inl ⟨stop, rfl⟩
      have notEnd : ¬ (c = 0 ∨ (c = 13 ∧ rest.head? = some 10)) :=
        fun now => stop (endOfHeaders_cons.mpr now)
      cases one : parsedHeaderParse pr (c :: rest) with
      | none => simp [parseHeaders, notEnd, one] at parse
      | some result =>
          obtain ⟨ret, pr₁⟩ := result
          by_cases zero : ret = 0
          · subst zero
            obtain ⟨key, value, at_, rfl⟩ := parsedHeaderParse_reads one
            cases read : cstring (c :: rest) with
            | none => simp [parseHeaders, notEnd, one, read] at parse
            | some str =>
                rw [parseHeaders_turn stop one read] at parse
                refine .inr ⟨key, value, str, stop, at_, rfl, ?_⟩
                cases found : strstr crlf str with
                | none =>
                    rw [found] at parse
                    cases parse
                    exact .inl ⟨rfl, rfl⟩
                | some i =>
                    rw [found] at parse
                    exact .inr ⟨i, rfl, parse⟩
          · simp [parseHeaders, notEnd, one, zero] at parse

/-- What the loop sets, and that it starts with the header at its start. -/
theorem parseHeaders_sets (parse : parseHeaders fuel pr text = some (0, pr')) :
    ∃ sets : List Header, pr' = sets.foldl setHeader pr ∧ Linked sets ∧
      (∀ h ∈ sets, CleanHeader h) ∧ (EndOfHeaders text → sets = []) ∧
      (¬ EndOfHeaders text → ∃ h rest, sets = h :: rest ∧ HeaderAt text h.1 h.2) := by
  induction fuel generalizing pr text with
  | zero => cases parse
  | succ fuel ih =>
      rcases parseHeaders_turn_cases parse with
        ⟨stop, rfl⟩ | ⟨key, value, str, more, at_, read, turn⟩
      · exact ⟨[], rfl, trivial, by simp, fun _ => rfl, fun more => absurd stop more⟩
      have clean : CleanHeader (key, value) :=
        ⟨at_.key, fun starts => more (at_.endOfHeaders.mpr starts), at_.value⟩
      obtain ⟨behind, whole⟩ := at_.str read
      rcases turn with ⟨noLine, rfl⟩ | ⟨i, found, rest⟩
      · refine ⟨[(key, value)], rfl, ⟨?_, trivial⟩, by simpa using clean,
          fun stop => absurd stop more, fun _ => ⟨_, _, rfl, at_⟩⟩
        intro line next
        obtain ⟨first, rfl, -⟩ := nextLine_eq_some next
        exact absurd ⟨first, line ++ colon :: behind, by simp [whole]⟩ (strstr_eq_none noLine)
      · obtain ⟨sets, rfl, linked, cleans, ends, starts⟩ := ih rest
        refine ⟨(key, value) :: sets, rfl, ⟨?_, linked⟩, ?_, fun stop => absurd stop more,
          fun _ => ⟨_, _, rfl, at_⟩⟩
        · intro line next
          obtain ⟨first, rfl, fresh⟩ := nextLine_eq_some next
          -- the loop goes on behind the first line of the key
          have here : strstr crlf str = some first.length := by
            rw [whole, List.append_assoc]
            exact strstr_crlf fresh
          rw [found] at here
          obtain rfl := Option.some.inj here
          have next := at_.behind
          by_cases blank : crlf.isPrefixOf line = true
          · rw [if_pos blank]
            exact ends (next.endOfHeaders.mpr (List.isPrefixOf_iff_prefix.mp blank))
          · rw [if_neg blank]
            obtain ⟨h, rest', rfl, at_'⟩ := starts fun stop =>
              blank (List.isPrefixOf_iff_prefix.mpr (next.endOfHeaders.mp stop))
            obtain ⟨keys, values⟩ := at_'.unique next
            exact ⟨rest', by rw [← keys, ← values]⟩
        · intro h member
          rcases List.mem_cons.mp member with rfl | member
          · exact clean
          · exact cleans h member

end

/-! ## The lines of a key -/

section

variable {h : Header} {line : Bytes}

theorem keyLines_none (next : nextLine h.1 = none) : keyLines h.1 = ([], false) := by
  rw [keyLines]
  split
  · rfl
  · next rest some => rw [next] at some; cases some

theorem keyLines_some (next : nextLine h.1 = some line) :
    keyLines h.1 =
      if crlf.isPrefixOf line then ([], true)
        else (line :: (keyLines line).1, (keyLines line).2) := by
  rw [keyLines]
  split
  · next none => rw [next] at none; cases none
  · next rest some =>
      rw [next] at some
      cases some
      rfl

theorem lineSets_next (next : nextLine h.1 = some line) (more : ¬ crlf.isPrefixOf line = true) :
    lineSets h = h :: lineSets (line, h.2) ∧ (keyLines h.1).2 = (keyLines line).2 := by
  rw [lineSets, keyLines_some next, if_neg more]
  exact ⟨rfl, rfl⟩

theorem CleanHeader.next (clean : CleanHeader h) (next : nextLine h.1 = some line)
    (more : ¬ crlf.isPrefixOf line = true) : CleanHeader (line, h.2) := by
  obtain ⟨first, whole, -⟩ := nextLine_eq_some next
  refine ⟨⟨fun zero => clean.key.1 ?_, fun member => clean.key.2 ?_⟩,
    fun starts => more (List.isPrefixOf_iff_prefix.mpr starts), clean.value⟩
  · rw [whole]
    exact List.mem_append_right _ zero
  · rw [whole]
    exact List.mem_append_right _ member

/-- The lines of a key are shorter and shorter, so no two are the same. -/
theorem lineSets_keys (h : Header) :
    (∀ k ∈ (lineSets h).map Prod.fst, k.length ≤ h.1.length) ∧
      ((lineSets h).map Prod.fst).Nodup := by
  obtain ⟨key, value⟩ := h
  induction length : key.length using Nat.strong_induction_on generalizing key with
  | _ n ih =>
      subst length
      cases next : nextLine key with
      | none =>
          have only : lineSets (key, value) = [(key, value)] := by
            rw [lineSets, keyLines_none next]
            rfl
          simp [only]
      | some line =>
          by_cases blank : crlf.isPrefixOf line = true
          · have only : lineSets (key, value) = [(key, value)] := by
              rw [lineSets, keyLines_some next, if_pos blank]
              rfl
            simp [only]
          · have shorter := nextLine_length next
            obtain ⟨bound, nodup⟩ := ih line.length (by omega) line rfl
            rw [(lineSets_next next blank).1, List.map_cons]
            refine ⟨?_, List.nodup_cons.mpr ⟨fun member => ?_, nodup⟩⟩
            · intro k member
              rcases List.mem_cons.mp member with rfl | member
              · exact Nat.le_refl _
              · have := bound k member
                omega
            · have := bound key member
              omega

end

/-! ## Lines -/

/-- Header lines, each with its line end. -/
def joinLines (lines : List Bytes) : Bytes := (lines.map (· ++ crlf)).flatten

theorem joinLines_cons (line : Bytes) (lines : List Bytes) :
    joinLines (line :: lines) = line ++ crlf ++ joinLines lines := rfl

/-- The blank line behind the header lines. -/
theorem blankLine_joinLines (line body : Bytes) (lines : List Bytes) :
    crlf ++ crlf <:+: line ++ crlf ++ (joinLines lines ++ crlf ++ body) := by
  cases lines using List.reverseRecOn with
  | nil => exact ⟨line, body, by simp [joinLines]⟩
  | append_singleton lines l =>
      refine ⟨line ++ crlf ++ joinLines lines ++ l, body, ?_⟩
      simp [joinLines]

/-! ## Printed headers -/

section

variable {fuel : Nat} {pr : ParsedRequest} {h : Header} {more : Bytes}

/-- The loop on a printed header. -/
theorem parseHeaders_printed (clean : CleanHeader h) (ends : 0 ∈ more) :
    parseHeaders (fuel + 1) pr (printHeader h ++ more) =
      match nextLine h.1 with
      | none => parseHeaders fuel (setHeader pr h) more
      | some line => parseHeaders fuel (setHeader pr h) (printHeader (line, h.2) ++ more) := by
  obtain ⟨key, value⟩ := h
  obtain ⟨str, post, cleanStr, rfl⟩ := exists_cstring ends
  have whole : printHeader (key, value) ++ (str ++ 0 :: post) =
      key ++ colon :: space :: (value ++ crlf ++ (str ++ 0 :: post)) := by simp [printHeader]
  have at_ : HeaderAt (printHeader (key, value) ++ (str ++ 0 :: post)) key value :=
    ⟨⟨space, _, whole⟩, clean.key, clean.value⟩
  have cleanAll : 0 ∉ key ++ colon :: space :: (value ++ crlf ++ str) := by
    simp [clean.key.1, clean.value.1, cleanStr, colon, space, crlf]
  have read : cstring (printHeader (key, value) ++ (str ++ 0 :: post)) =
      some (key ++ colon :: space :: (value ++ crlf ++ str)) := by
    have regroup : printHeader (key, value) ++ (str ++ 0 :: post) =
        (key ++ colon :: space :: (value ++ crlf ++ str)) ++ 0 :: post := by simp [printHeader]
    rw [regroup, cstring_append cleanAll]
  have one : parsedHeaderParse pr (printHeader (key, value) ++ (str ++ 0 :: post)) = _ :=
    parsedHeaderParse_at whole clean.key clean.value (by simp)
  rw [parseHeaders_turn (fun stop => clean.starts (at_.endOfHeaders.mp stop)) one read]
  cases next : nextLine key with
  | none =>
      have fresh : ¬ crlf <:+: key ++ colon :: space :: value :=
        pair_separated (by decide) (by decide) (nextLine_eq_none next)
          (pair_separated (x := []) (by decide) (by decide) (by decide) clean.value.2)
      have found : strstr crlf (key ++ colon :: space :: (value ++ crlf ++ str)) =
          some (key ++ colon :: space :: value).length := by
        have regroup : key ++ colon :: space :: (value ++ crlf ++ str) =
            (key ++ colon :: space :: value) ++ crlf ++ str := by simp
        rw [regroup]
        exact strstr_crlf fresh
      have behind : (printHeader (key, value) ++ (str ++ 0 :: post)).drop
          ((key ++ colon :: space :: value).length + 2) = str ++ 0 :: post :=
        List.drop_left' (by simp [printHeader, crlf]; omega)
      simp only [found, behind]
  | some line =>
      obtain ⟨first, rfl, fresh⟩ := nextLine_eq_some next
      have found : strstr crlf (first ++ crlf ++ line ++ colon :: space :: (value ++ crlf ++ str)) =
          some first.length := by
        rw [List.append_assoc]
        exact strstr_crlf fresh
      have behind : (printHeader (first ++ crlf ++ line, value) ++ (str ++ 0 :: post)).drop
          (first.length + 2) = printHeader (line, value) ++ (str ++ 0 :: post) := by
        have regroup : printHeader (first ++ crlf ++ line, value) ++ (str ++ 0 :: post) =
            (first ++ crlf) ++ (printHeader (line, value) ++ (str ++ 0 :: post)) := by
          simp [printHeader]
        rw [regroup]
        exact List.drop_left' (by simp [crlf])
      simp only [found, behind]

/-- The loop on a printed header, up to the end of its key. -/
theorem parseHeaders_lineSets (pr : ParsedRequest) (clean : CleanHeader h) (ends : 0 ∈ more)
    (enough : (printHeader h ++ more).length ≤ fuel) :
    if (keyLines h.1).2 then
      parseHeaders fuel pr (printHeader h ++ more) = some (0, (lineSets h).foldl setHeader pr)
    else
      ∃ fuel', more.length ≤ fuel' ∧ parseHeaders fuel pr (printHeader h ++ more) =
        parseHeaders fuel' ((lineSets h).foldl setHeader pr) more := by
  obtain ⟨key, value⟩ := h
  induction length : key.length using Nat.strong_induction_on generalizing key fuel pr with
  | _ n ih =>
      subst length
      have size : (printHeader (key, value) ++ more).length =
          key.length + value.length + 4 + more.length := by
        simp [printHeader, crlf]
        omega
      obtain ⟨fuel, rfl⟩ : ∃ m, fuel = m + 1 := ⟨fuel - 1, by omega⟩
      rw [parseHeaders_printed clean ends]
      cases next : nextLine key with
      | none =>
          have none : keyLines key = ([], false) := keyLines_none (h := (key, value)) next
          have only : lineSets (key, value) = [(key, value)] := by rw [lineSets, none]; rfl
          rw [none, if_neg (by decide), only]
          exact ⟨fuel, by omega, rfl⟩
      | some line =>
          have shorter := nextLine_length next
          by_cases blank : crlf.isPrefixOf line = true
          · have last : keyLines key = ([], true) := by
              rw [keyLines_some (h := (key, value)) next, if_pos blank]
            have only : lineSets (key, value) = [(key, value)] := by rw [lineSets, last]; rfl
            obtain ⟨tail, starts⟩ := List.isPrefixOf_iff_prefix.mp blank
            obtain ⟨fuel, rfl⟩ : ∃ m, fuel = m + 1 := ⟨fuel - 1, by omega⟩
            rw [last, if_pos rfl, only]
            apply parseHeaders_end (by simp [printHeader])
            exact .inr ⟨tail ++ colon :: space :: (value ++ (crlf ++ more)),
              by rw [printHeader, ← starts]; simp⟩
          · have sets := lineSets_next (h := (key, value)) next blank
            have size' : (printHeader (line, value) ++ more).length =
                line.length + value.length + 4 + more.length := by
              simp [printHeader, crlf]
              omega
            rw [sets.1, sets.2, List.foldl_cons]
            exact ih line.length (by omega) (setHeader pr (key, value)) line (clean.next next blank)
              (by omega) rfl

/-- The headers that the lines printed for a list of headers set. -/
def lineSetsAll : List Header → List Header
  | [] => []
  | h :: rest => lineSets h ++ if (keyLines h.1).2 then [] else lineSetsAll rest

/-- The loop on printed headers. -/
theorem parseHeaders_lines {headers : List Header} (clean : ∀ h ∈ headers, CleanHeader h)
    (enough : ((headers.map printHeader).flatten ++ crlf ++ [0]).length ≤ fuel) :
    parseHeaders fuel pr ((headers.map printHeader).flatten ++ crlf ++ [0]) =
      some (0, (lineSetsAll headers).foldl setHeader pr) := by
  induction headers generalizing fuel pr with
  | nil =>
      obtain ⟨fuel, rfl⟩ : ∃ m, fuel = m + 1 := ⟨fuel - 1, by simp [crlf] at enough; omega⟩
      exact parseHeaders_end (by simp) (.inr ⟨[0], by simp⟩)
  | cons h rest ih =>
      have regroup : ((h :: rest).map printHeader).flatten ++ crlf ++ [0] =
          printHeader h ++ ((rest.map printHeader).flatten ++ crlf ++ [0]) := by simp
      rw [regroup] at enough ⊢
      have one := parseHeaders_lineSets pr (clean h List.mem_cons_self) (by simp) enough
      by_cases last : (keyLines h.1).2 = true
      · rw [if_pos last] at one
        rw [one, lineSetsAll, if_pos last, List.append_nil]
      · rw [if_neg last] at one
        obtain ⟨fuel', enough', same⟩ := one
        rw [same, ih (fun h member => clean h (List.mem_cons_of_mem _ member)) enough', lineSetsAll,
          if_neg last, List.foldl_append]

end

end CompNet.Proxy
