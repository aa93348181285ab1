import CompNet.Proxy.RoundTrip

/-!
# Header lines, one at a time

A request that passes the test for a blank line is its request line, header lines, the blank
line and a body (`exists_headerLines`).  The loop makes one turn for each header line, but what
a turn sets is not taken from its line alone: the colon is the first one anywhere behind the
start of the line, in a later line or in the body, and the value starts two bytes behind it,
whatever the bytes are.
-/

namespace CompNet.Proxy

open CompNet.Lib

/-! ## Lines -/

/-- A line that is not the blank one. -/
structure HeaderLine (line : Bytes) : Prop where
  nonempty : line ≠ []
  plain : Plain line

theorem joinLines_clean {lines : List Bytes} (each : ∀ l ∈ lines, HeaderLine l) :
    0 ∉ joinLines lines := by
  induction lines with
  | nil => simp [joinLines]
  | cons l rest ih =>
      have first := (each l List.mem_cons_self).plain.1
      have others := ih fun m member => each m (List.mem_cons_of_mem l member)
      simp [joinLines_cons, crlf, first, others]

theorem colon_notMem_joinLines {lines : List Bytes} (none : ∀ l ∈ lines, colon ∉ l) :
    colon ∉ joinLines lines := by
  intro inside
  obtain ⟨line, inLines, inLine⟩ := List.mem_flatten.mp inside
  obtain ⟨l, member, rfl⟩ := List.mem_map.mp inLines
  rcases List.mem_append.mp inLine with inside | inEnd
  · exact none l member inside
  · exact colon_notMem_crlf inEnd

/-- A blank line behind a line end comes at once, or behind more lines. -/
theorem blankLine_behind {line rest : Bytes} (oneLine : ¬ crlf <:+: line)
    (blank : crlf ++ crlf <:+: line ++ crlf ++ rest) :
    crlf <+: rest ∨ crlf ++ crlf <:+: rest := by
  obtain ⟨before, behind, whole⟩ := blank
  cases found : strstr crlf before with
  | none =>
      left
      have same : before ++ crlf ++ (crlf ++ behind) = line ++ crlf ++ rest := by
        rw [← whole]
        simp
      obtain ⟨-, rfl⟩ := value_unique (strstr_eq_none found) oneLine same
      exact ⟨behind, rfl⟩
  | some i =>
      right
      obtain ⟨first, more, rfl, -, fresh⟩ := strstr_eq_some found
      have same : first ++ crlf ++ (more ++ (crlf ++ crlf) ++ behind) = line ++ crlf ++ rest := by
        rw [← whole]
        simp
      obtain ⟨-, rfl⟩ := value_unique (fresh (by simp [crlf])) oneLine same
      exact ⟨more, behind, rfl⟩

/-- A text with a blank line in it is header lines up to the first one. -/
theorem exists_headerLines {line rest : Bytes} (oneLine : ¬ crlf <:+: line) (clean : 0 ∉ rest)
    (blank : crlf ++ crlf <:+: line ++ crlf ++ rest) :
    ∃ lines body, rest = joinLines lines ++ crlf ++ body ∧ ∀ l ∈ lines, HeaderLine l := by
  induction length : rest.length using Nat.strong_induction_on generalizing line rest with
  | _ n ih =>
      subst length
      rcases blankLine_behind oneLine blank with ⟨body, rfl⟩ | later
      · exact ⟨[], body, rfl, by simp⟩
      cases found : strstr crlf rest with
      | none => exact absurd ((List.infix_append' [] crlf crlf).trans later) (strstr_eq_none found)
      | some i =>
          obtain ⟨l, more, rfl, -, fresh⟩ := strstr_eq_some found
          have oneLine' := fresh (by simp [crlf])
          by_cases empty : l = []
          · exact ⟨[], more, by rw [empty]; rfl, by simp⟩
          have cleanLine : 0 ∉ l := fun zero => clean (by simp [zero])
          have cleanMore : 0 ∉ more := fun zero => clean (by simp [zero])
          obtain ⟨lines, body, rfl, each⟩ :=
            ih more.length (by simp [crlf]; omega) oneLine' cleanMore later rfl
          refine ⟨l :: lines, body, by simp [joinLines_cons], ?_⟩
          intro m member
          rcases List.mem_cons.mp member with rfl | member
          · exact ⟨empty, cleanLine, oneLine'⟩
          · exact each m member

/-- Header lines up to a blank line are read in one way only. -/
theorem joinLines_unique {lines lines' : List Bytes} {body body' : Bytes}
    (each : ∀ l ∈ lines, HeaderLine l) (each' : ∀ l ∈ lines', HeaderLine l)
    (same : joinLines lines ++ crlf ++ body = joinLines lines' ++ crlf ++ body') :
    lines = lines' ∧ body = body' := by
  -- a first line is not blank
  have apart : ∀ {l : Bytes} {rest : List Bytes} {body body' : Bytes}, HeaderLine l →
      joinLines (l :: rest) ++ crlf ++ body ≠ joinLines [] ++ crlf ++ body' := by
    intro l rest body body' line same
    have lines : l ++ crlf ++ (joinLines rest ++ crlf ++ body) = [] ++ crlf ++ body' := by
      rw [joinLines_cons] at same
      simpa [joinLines] using same
    exact line.nonempty (value_unique line.plain.2 plain_nil.2 lines).1
  induction lines generalizing lines' with
  | nil =>
      cases lines' with
      | nil => exact ⟨rfl, List.append_cancel_left same⟩
      | cons l' rest' => exact absurd same.symm (apart (each' l' List.mem_cons_self))
  | cons l rest ih =>
      cases lines' with
      | nil => exact absurd same (apart (each l List.mem_cons_self))
      | cons l' rest' =>
          have first : l ++ crlf ++ (joinLines rest ++ crlf ++ body) =
              l' ++ crlf ++ (joinLines rest' ++ crlf ++ body') := by
            rw [joinLines_cons, joinLines_cons] at same
            simpa using same
          obtain ⟨rfl, more⟩ := value_unique (each l List.mem_cons_self).plain.2
            (each' l' List.mem_cons_self).plain.2 first
          obtain ⟨rfl, rfl⟩ := ih (fun m member => each m (List.mem_cons_of_mem l member))
            (fun m member => each' m (List.mem_cons_of_mem l member)) more
          exact ⟨rfl, rfl⟩

/-! ## One turn -/

/-- The body as the string searches see it. -/
def bodyText (body : Bytes) : Bytes := body.takeWhile (· != 0)

theorem cstring_body (body : Bytes) : cstring (body ++ [0]) = some (bodyText body) := by
  have inside : 0 ∈ body ++ [0] := by simp
  rw [cstring, if_pos inside, bodyText, List.takeWhile_append]
  split
  · next whole =>
      have all := (List.takeWhile_prefix (· != 0)).eq_of_length whole
      rw [all]
      exact congrArg some (List.append_nil body)
  · rfl

theorem cstring_behind_text {before : Bytes} (body : Bytes) (clean : 0 ∉ before) :
    cstring (before ++ (body ++ [0])) = some (before ++ bodyText body) := by
  obtain ⟨cleanBody, post, whole⟩ := cstring_eq_some (cstring_body body)
  rw [whole, ← List.append_assoc]
  apply cstring_append
  rw [List.mem_append, not_or]
  exact ⟨clean, cleanBody⟩

section

variable {fuel : Nat} {pr pr' : ParsedRequest} {text before key value l more : Bytes}

theorem parsedHeaderParse_noColon {str : Bytes} (read : cstring text = some str)
    (none : colon ∉ str) : parsedHeaderParse pr text = some (-1, pr) := by
  have notFound : str.idxOf? colon = Option.none := List.idxOf?_eq_none_iff.mpr none
  simp only [parsedHeaderParse, read, Option.bind_eq_bind, Option.bind_some, notFound]

/-- With a colon but no header, the end of the value is searched in vain. -/
theorem parsedHeaderParse_lost {str : Bytes} (read : cstring text = some str)
    (inside : colon ∈ str) (lost : ¬ ∃ key value, HeaderAt text key value) :
    parsedHeaderParse pr text = none := by
  cases parse : parsedHeaderParse pr text with
  | none => rfl
  | some result =>
      obtain ⟨ret, pr'⟩ := result
      have zero : ret = 0 := by
        cases found : str.idxOf? colon with
        | none => exact absurd inside (List.idxOf?_eq_none_iff.mp found)
        | some i =>
            simp only [parsedHeaderParse, read, Option.bind_eq_bind, Option.bind_some, found,
              Option.bind_eq_some_iff, Option.some.injEq, Prod.mk.injEq] at parse
            obtain ⟨-, -, -, -, zero, -⟩ := parse
            exact zero.symm
      rw [zero] at parse
      obtain ⟨key, value, at_, -⟩ := parsedHeaderParse_reads parse
      exact absurd ⟨key, value, at_⟩ lost

/-- A header whose text ends in a NUL is set. -/
theorem parsedHeaderParse_headerAt {front : Bytes} (whole : text = front ++ [0])
    (at_ : HeaderAt text key value) :
    parsedHeaderParse pr text = some (0, setHeader pr (key, value)) := by
  obtain ⟨x, more, split⟩ := at_.split
  have ends : 0 ∈ more := by
    cases more using List.reverseRecOn with
    | nil =>
        have regroup : front ++ [0] = (key ++ colon :: x :: (value ++ [13])) ++ [10] := by
          rw [← whole, split]
          simp [crlf]
        exact absurd (List.append_inj' regroup rfl).2 (by decide)
    | append_singleton more c =>
        have regroup : front ++ [0] = (key ++ colon :: x :: (value ++ crlf ++ more)) ++ [c] := by
          rw [← whole, split]
          simp
        rw [← (List.append_inj' regroup rfl).2]
        exact List.mem_append_right _ List.mem_cons_self
  exact parsedHeaderParse_at split at_.key at_.value ends

/-- Text without a colon in front of a header becomes part of its key. -/
theorem HeaderAt.behind_text (clean : 0 ∉ before ∧ colon ∉ before) :
    HeaderAt text key value → HeaderAt (before ++ text) (before ++ key) value := by
  intro at_
  obtain ⟨x, more, split⟩ := at_.split
  refine ⟨⟨x, more, by rw [split, ← List.append_assoc]⟩, ?_, at_.value⟩
  simp only [List.mem_append, not_or]
  exact ⟨⟨clean.1, at_.key.1⟩, clean.2, at_.key.2⟩

theorem HeaderAt.of_behind_text (clean : 0 ∉ before ∧ colon ∉ before)
    (at_ : HeaderAt (before ++ text) key value) :
    ∃ key', key = before ++ key' ∧ HeaderAt text key' value := by
  obtain ⟨x, more, split⟩ := at_.split
  rcases List.append_eq_append_iff.mp split with ⟨rest, rfl, behind⟩ | ⟨rest, whole, behind⟩
  · refine ⟨rest, rfl, ⟨x, more, behind⟩, ?_, at_.value⟩
    have cleanKey := at_.key
    simp only [List.mem_append, not_or] at cleanKey
    exact ⟨cleanKey.1.2, cleanKey.2.2⟩
  · cases rest with
    | nil => exact ⟨[], by simp [whole], ⟨x, more, behind.symm⟩, by simp, at_.value⟩
    | cons c rest =>
        obtain ⟨rfl, -⟩ := List.cons.inj behind
        exact absurd (by simp [whole]) clean.2

theorem HeaderLine.not_endOfHeaders (line : HeaderLine l) :
    ¬ EndOfHeaders (l ++ crlf ++ more) := by
  obtain ⟨c, rest, rfl⟩ := List.exists_cons_of_ne_nil line.nonempty
  rw [List.cons_append, List.cons_append, endOfHeaders_cons, not_or]
  refine ⟨fun zero => line.plain.1 (by simp [zero]), ?_⟩
  rintro ⟨rfl, second⟩
  cases rest with
  | nil => cases second
  | cons d rest =>
      obtain rfl : d = 10 := Option.some.inj second
      exact line.plain.2 ⟨[], rest, rfl⟩

/-- A turn that sets a header goes on at the next line. -/
theorem parseHeaders_headerLine (line : HeaderLine l) (ends : 0 ∈ more)
    (one : parsedHeaderParse pr (l ++ crlf ++ more) = some (0, pr')) :
    parseHeaders (fuel + 1) pr (l ++ crlf ++ more) = parseHeaders fuel pr' more := by
  have inside : 0 ∈ l ++ crlf ++ more := List.mem_append_right _ ends
  have read : cstring (l ++ crlf ++ more) = some _ := if_pos inside
  have clean : 0 ∉ l ++ crlf := by
    simp [crlf, line.plain.1]
  obtain ⟨behind, whole⟩ := cstring_prefix clean read
  have found : strstr crlf (l ++ crlf ++ behind) = some l.length := strstr_crlf line.plain.2
  rw [whole] at read
  rw [parseHeaders_turn line.not_endOfHeaders one read, found]
  simp only [drop_crlf]

/-- A turn that sets none is the last. -/
theorem parseHeaders_headerLine_stop (line : HeaderLine l) {result : Option (Int × ParsedRequest)}
    (one : parsedHeaderParse pr (l ++ crlf ++ more) = result)
    (stops : result = none ∨ result = some (-1, pr)) :
    parseHeaders (fuel + 1) pr (l ++ crlf ++ more) = result := by
  have more' : ¬ EndOfHeaders (l ++ crlf ++ more) := line.not_endOfHeaders
  obtain ⟨c, rest, whole⟩ := List.exists_cons_of_ne_nil
    (show l ++ crlf ++ more ≠ [] by simp [crlf])
  rw [whole] at one more' ⊢
  rw [endOfHeaders_cons] at more'
  simp only [parseHeaders, if_neg more', one]
  rcases stops with rfl | rfl
  · rfl
  · rfl

end

/-! ## What the lines say and what is read -/

/-- The key of a line, up to its first colon, and what stands behind the colon. -/
def lineKey (l : Bytes) : Bytes := l.takeWhile (· != colon)

def lineBehind (l : Bytes) : Bytes := (l.dropWhile (· != colon)).tail

/-- What a line says: behind its colon one space is optional. -/
def statedHeader (l : Bytes) : Header :=
  (lineKey l,
    if (lineBehind l).head? = some space then (lineBehind l).tail else lineBehind l)

/-- What is read of a line with a colon: the byte behind the colon is skipped, and where the
line ends there, the value is a line feed and the next line. -/
def readHeader (l next : Bytes) : Header :=
  (lineKey l,
    match lineBehind l with
    | [] => 10 :: next
    | _ :: value => value)

/-- What is read of lines that all have a colon; the line behind the last one is blank. -/
def readHeaders : List Bytes → List Header
  | [] => []
  | l :: rest => readHeader l (rest.headD []) :: readHeaders rest

theorem readHeader_fst (l next : Bytes) : (readHeader l next).1 = lineKey l := rfl

theorem statedHeader_fst (l : Bytes) : (statedHeader l).1 = lineKey l := rfl

section

variable {pr : ParsedRequest} {l key behind body : Bytes} {lines rest : List Bytes}

theorem bne_colon (fresh : colon ∉ key) : ∀ c ∈ key, (c != colon) = true := by
  intro c member
  have other : c ≠ colon := fun same => fresh (same ▸ member)
  simpa using other

theorem lineKey_eq (fresh : colon ∉ key) : lineKey (key ++ colon :: behind) = key := by
  rw [lineKey, List.takeWhile_append_of_pos (bne_colon fresh)]
  simp

theorem lineBehind_eq (fresh : colon ∉ key) : lineBehind (key ++ colon :: behind) = behind := by
  rw [lineBehind, List.dropWhile_append_of_pos (bne_colon fresh)]
  simp

/-- A line feed by itself does not end a line. -/
theorem Plain.lineFeed {next : Bytes} (plain : Plain next) : Plain (10 :: next) := by
  refine ⟨?_, ?_⟩
  · rw [List.mem_cons, not_or]
    exact ⟨by decide, plain.1⟩
  · intro occurs
    rcases List.infix_cons_iff.mp occurs with ⟨tail, starts⟩ | inside
    · exact absurd (List.cons.inj starts).1 (by decide)
    · exact plain.2 inside

/-- The header at the head of lines, the first of which has a colon. -/
theorem headerAt_colon (each : ∀ m ∈ l :: rest, HeaderLine m) (inside : colon ∈ l) :
    HeaderAt (joinLines (l :: rest) ++ crlf ++ body) (readHeader l (rest.headD [])).1
      (readHeader l (rest.headD [])).2 := by
  obtain ⟨key, behind, rfl, fresh⟩ := List.eq_append_cons_of_mem inside
  have line := (each _ List.mem_cons_self).plain
  have cleanKey : 0 ∉ key ∧ colon ∉ key := ⟨fun zero => line.1 (by simp [zero]), fresh⟩
  simp only [readHeader, lineKey_eq fresh, lineBehind_eq fresh]
  cases behind with
  | cons x value =>
      refine ⟨⟨x, joinLines rest ++ crlf ++ body, by simp [joinLines_cons]⟩, cleanKey, ?_⟩
      exact line.of_infix ⟨key ++ [colon, x], [], by simp⟩
  | nil =>
      cases rest with
      | nil =>
          exact ⟨⟨13, body, by simp [joinLines, crlf]⟩, cleanKey, plain_nil.lineFeed⟩
      | cons next rest =>
          have plainNext := (each next (by simp)).plain
          refine ⟨⟨13, joinLines rest ++ crlf ++ body, ?_⟩, cleanKey, plainNext.lineFeed⟩
          simp [joinLines_cons, crlf]

theorem HeaderLine.clean_end (line : HeaderLine l) (bare : colon ∉ l) :
    0 ∉ l ++ crlf ∧ colon ∉ l ++ crlf := by
  simp only [List.mem_append, not_or]
  exact ⟨⟨line.plain.1, zero_notMem_crlf⟩, bare, colon_notMem_crlf⟩

theorem exists_headerAt_colon (each : ∀ m ∈ lines, HeaderLine m)
    (some : ∃ m ∈ lines, colon ∈ m) :
    ∃ key value, HeaderAt (joinLines lines ++ crlf ++ body) key value := by
  induction lines with
  | nil =>
      obtain ⟨m, member, -⟩ := some
      cases member
  | cons l rest ih =>
      by_cases here : colon ∈ l
      · exact ⟨_, _, headerAt_colon each here⟩
      · obtain ⟨m, member, inside⟩ := some
        have later : m ∈ rest := by
          rcases List.mem_cons.mp member with rfl | later
          · exact absurd inside here
          · exact later
        obtain ⟨key, value, at_⟩ :=
          ih (fun m member => each m (List.mem_cons_of_mem l member)) ⟨m, later, inside⟩
        have clean := (each l List.mem_cons_self).clean_end here
        have whole := at_.behind_text clean
        rw [← List.append_assoc, ← List.append_assoc, ← joinLines_cons] at whole
        exact ⟨_, _, whole⟩

/-- The key that is read at a line: that of the line, or one that goes on in the next. -/
def KeyAt (l : Bytes) (h : Header) : Prop := if colon ∈ l then h.1 = lineKey l else crlf <:+: h.1

theorem HeaderAt.keyAt {key value : Bytes} (each : ∀ m ∈ l :: rest, HeaderLine m)
    (at_ : HeaderAt (joinLines (l :: rest) ++ crlf ++ body) key value) : KeyAt l (key, value) := by
  unfold KeyAt
  split
  · next here => exact (at_.unique (headerAt_colon each here)).1
  · next bare =>
      rw [joinLines_cons, List.append_assoc, List.append_assoc] at at_
      obtain ⟨key', rfl, -⟩ :=
        at_.of_behind_text ((each l List.mem_cons_self).clean_end bare)
      exact ⟨l, key', by simp⟩

/-- Lines without a colon and the blank line. -/
theorem joinLines_bare (each : ∀ m ∈ lines, HeaderLine m) (bare : ∀ m ∈ lines, colon ∉ m) :
    0 ∉ joinLines lines ++ crlf ∧ colon ∉ joinLines lines ++ crlf := by
  simp only [List.mem_append, not_or]
  exact ⟨⟨joinLines_clean each, zero_notMem_crlf⟩, colon_notMem_joinLines bare, colon_notMem_crlf⟩

end

/-! ## All turns -/

/-- The last line has no colon. -/
def LastBare (lines : List Bytes) : Prop := ∃ l, lines.getLast? = some l ∧ colon ∉ l

/-- A body that is read as a header without an end: it has a colon before its first NUL, but no
line end between the second byte behind the colon and the next NUL. -/
def Unended (body : Bytes) : Prop :=
  colon ∈ bodyText body ∧ ¬ ∃ key value, HeaderAt (body ++ [0]) key value

section

variable {fuel : Nat} {pr : ParsedRequest} {l body : Bytes} {lines rest : List Bytes}

theorem LastBare.tail (bare : LastBare (l :: rest)) (some : ∃ m ∈ l :: rest, colon ∈ m) :
    LastBare rest := by
  obtain ⟨last, isLast, noColon⟩ := bare
  cases rest with
  | nil =>
      obtain ⟨m, member, inside⟩ := some
      obtain rfl := List.mem_singleton.mp member
      obtain rfl := Option.some.inj isLast
      exact absurd inside noColon
  | cons m rest => exact ⟨last, by rwa [List.getLast?_cons_cons] at isLast, noColon⟩

theorem LastBare.cons (bare : LastBare rest) : LastBare (l :: rest) := by
  obtain ⟨last, isLast, noColon⟩ := bare
  cases rest with
  | nil => cases isLast
  | cons m rest => exact ⟨last, by rwa [List.getLast?_cons_cons], noColon⟩

theorem lastBare_of_all (each : ∀ m ∈ l :: rest, colon ∉ m) : LastBare (l :: rest) :=
  ⟨_, List.getLast?_eq_some_getLast (by simp), each _ (List.getLast_mem (by simp))⟩

/-- One turn on lines at whose head a header is read. -/
theorem parseHeaders_lines_turn {key value : Bytes} (each : ∀ m ∈ l :: rest, HeaderLine m)
    (at_ : HeaderAt (joinLines (l :: rest) ++ crlf ++ (body ++ [0])) key value) :
    parseHeaders (fuel + 1) pr (joinLines (l :: rest) ++ crlf ++ (body ++ [0])) =
      parseHeaders fuel (setHeader pr (key, value)) (joinLines rest ++ crlf ++ (body ++ [0])) := by
  have whole : joinLines (l :: rest) ++ crlf ++ (body ++ [0]) =
      (joinLines (l :: rest) ++ crlf ++ body) ++ [0] := by simp
  have one : parsedHeaderParse pr (joinLines (l :: rest) ++ crlf ++ (body ++ [0])) = _ :=
    parsedHeaderParse_headerAt whole at_
  have regroup : joinLines (l :: rest) ++ crlf ++ (body ++ [0]) =
      l ++ crlf ++ (joinLines rest ++ crlf ++ (body ++ [0])) := by simp [joinLines_cons]
  rw [regroup] at one ⊢
  exact parseHeaders_headerLine (each l List.mem_cons_self) (by simp) one

theorem length_joinLines_cons (l : Bytes) (rest : List Bytes) (body : Bytes) :
    (joinLines (l :: rest) ++ crlf ++ body).length =
      l.length + 2 + (joinLines rest ++ crlf ++ body).length := by
  simp only [joinLines_cons, crlf, List.length_append, List.length_cons, List.length_nil]
  omega

/-- The loop on lines that all have a colon. -/
theorem parseHeaders_colons (each : ∀ m ∈ lines, HeaderLine m) (colons : ∀ m ∈ lines, colon ∈ m)
    (enough : (joinLines lines ++ crlf ++ (body ++ [0])).length ≤ fuel) :
    parseHeaders fuel pr (joinLines lines ++ crlf ++ (body ++ [0])) =
      some (0, (readHeaders lines).foldl setHeader pr) := by
  induction lines generalizing fuel pr with
  | nil =>
      obtain ⟨fuel, rfl⟩ : ∃ m, fuel = m + 1 := ⟨fuel - 1, by simp [crlf] at enough; omega⟩
      exact parseHeaders_end (by simp [crlf]) (.inr ⟨body ++ [0], rfl⟩)
  | cons l rest ih =>
      rw [length_joinLines_cons] at enough
      obtain ⟨fuel, rfl⟩ : ∃ m, fuel = m + 1 := ⟨fuel - 1, by omega⟩
      rw [parseHeaders_lines_turn each (headerAt_colon each (colons l List.mem_cons_self)),
        ih (fun m member => each m (List.mem_cons_of_mem l member))
          (fun m member => colons m (List.mem_cons_of_mem l member)) (by omega)]
      rfl

/-- The loop reaches the blank line if the last line has a colon or the body can be read as a
header. -/
theorem parseHeaders_blankLine (each : ∀ m ∈ lines, HeaderLine m)
    (tied : ¬ LastBare lines ∨ ∃ key value, HeaderAt (body ++ [0]) key value)
    (enough : (joinLines lines ++ crlf ++ (body ++ [0])).length ≤ fuel) :
    ∃ sets : List Header, List.Forall₂ KeyAt lines sets ∧
      parseHeaders fuel pr (joinLines lines ++ crlf ++ (body ++ [0])) =
        some (0, sets.foldl setHeader pr) := by
  induction lines generalizing fuel pr with
  | nil => exact ⟨[], .nil, parseHeaders_colons (by simp) (by simp) enough⟩
  | cons l rest ih =>
      have header : ∃ key value,
          HeaderAt (joinLines (l :: rest) ++ crlf ++ (body ++ [0])) key value := by
        by_cases some : ∃ m ∈ l :: rest, colon ∈ m
        · exact exists_headerAt_colon each some
        · have bare : ∀ m ∈ l :: rest, colon ∉ m := fun m member inside => some ⟨m, member, inside⟩
          rcases tied with colonLast | ⟨key, value, at_⟩
          · exact absurd (lastBare_of_all bare) colonLast
          · exact ⟨_, _, at_.behind_text (joinLines_bare each bare)⟩
      obtain ⟨key, value, at_⟩ := header
      rw [length_joinLines_cons] at enough
      obtain ⟨fuel, rfl⟩ : ∃ m, fuel = m + 1 := ⟨fuel - 1, by omega⟩
      have tied' : ¬ LastBare rest ∨ ∃ key value, HeaderAt (body ++ [0]) key value :=
        tied.imp_left fun colonLast bare => colonLast bare.cons
      obtain ⟨sets, keys, run⟩ := ih (fun m member => each m (List.mem_cons_of_mem l member)) tied'
        (show _ ≤ fuel by omega)
      exact ⟨(key, value) :: sets, .cons (at_.keyAt each) keys,
        by rw [parseHeaders_lines_turn each at_, run]; rfl⟩

/-- Where the last line has no colon, the loop ends as the first turn does that finds none in
the lines. -/
theorem parseHeaders_lastBare (outcome : ParsedRequest → Option (Int × ParsedRequest))
    (each : ∀ m ∈ lines, HeaderLine m) (bare : LastBare lines)
    (stops : ∀ pr, outcome pr = none ∨ outcome pr = some (-1, pr))
    (turn : ∀ pr before, 0 ∉ before ∧ colon ∉ before →
      parsedHeaderParse pr (before ++ (body ++ [0])) = outcome pr)
    (enough : (joinLines lines ++ crlf ++ (body ++ [0])).length ≤ fuel) :
    ∃ sets : List Header, parseHeaders fuel pr (joinLines lines ++ crlf ++ (body ++ [0])) =
      outcome (sets.foldl setHeader pr) := by
  induction lines generalizing fuel pr with
  | nil =>
      obtain ⟨l, isLast, -⟩ := bare
      cases isLast
  | cons l rest ih =>
      rw [length_joinLines_cons] at enough
      obtain ⟨fuel, rfl⟩ : ∃ m, fuel = m + 1 := ⟨fuel - 1, by omega⟩
      by_cases some : ∃ m ∈ l :: rest, colon ∈ m
      · obtain ⟨key, value, at_⟩ := exists_headerAt_colon each some
        obtain ⟨sets, run⟩ := ih (fun m member => each m (List.mem_cons_of_mem l member))
          (bare.tail some) (show _ ≤ fuel by omega)
        exact ⟨(key, value) :: sets, by rw [parseHeaders_lines_turn each at_, run]; rfl⟩
      · have none : ∀ m ∈ l :: rest, colon ∉ m := fun m member inside => some ⟨m, member, inside⟩
        have one := turn pr _ (joinLines_bare each none)
        have regroup : joinLines (l :: rest) ++ crlf ++ (body ++ [0]) =
            l ++ crlf ++ (joinLines rest ++ crlf ++ (body ++ [0])) := by simp [joinLines_cons]
        rw [regroup] at one ⊢
        exact ⟨[], parseHeaders_headerLine_stop (each l List.mem_cons_self) one (stops pr)⟩

theorem parseHeaders_rejected (each : ∀ m ∈ lines, HeaderLine m) (bare : LastBare lines)
    (noColon : colon ∉ bodyText body)
    (enough : (joinLines lines ++ crlf ++ (body ++ [0])).length ≤ fuel) :
    ∃ sets : List Header, parseHeaders fuel pr (joinLines lines ++ crlf ++ (body ++ [0])) =
      some (-1, sets.foldl setHeader pr) := by
  apply parseHeaders_lastBare (fun pr => some (-1, pr)) each bare (fun _ => .inr rfl) _ enough
  intro pr before clean
  apply parsedHeaderParse_noColon (cstring_behind_text body clean.1)
  rw [List.mem_append, not_or]
  exact ⟨clean.2, noColon⟩

theorem parseHeaders_unended (each : ∀ m ∈ lines, HeaderLine m) (bare : LastBare lines)
    (unended : Unended body)
    (enough : (joinLines lines ++ crlf ++ (body ++ [0])).length ≤ fuel) :
    parseHeaders fuel pr (joinLines lines ++ crlf ++ (body ++ [0])) = none := by
  have turn : ∀ (pr : ParsedRequest) (before : Bytes), 0 ∉ before ∧ colon ∉ before →
      parsedHeaderParse pr (before ++ (body ++ [0])) = none := by
    intro pr before clean
    apply parsedHeaderParse_lost (cstring_behind_text body clean.1)
      (List.mem_append_right _ unended.1)
    intro header
    obtain ⟨key, value, at_⟩ := header
    obtain ⟨key', -, at_'⟩ := at_.of_behind_text clean
    exact unended.2 ⟨key', value, at_'⟩
  obtain ⟨-, run⟩ := parseHeaders_lastBare (fun _ => none) each bare (fun _ => .inl rfl) turn enough
  exact run

/-- The three ways in which the loop ends. -/
theorem parseHeaders_outcome (pr : ParsedRequest) (each : ∀ m ∈ lines, HeaderLine m)
    (enough : (joinLines lines ++ crlf ++ (body ++ [0])).length ≤ fuel) :
    (∃ sets : List Header, List.Forall₂ KeyAt lines sets ∧
      parseHeaders fuel pr (joinLines lines ++ crlf ++ (body ++ [0])) =
        some (0, sets.foldl setHeader pr)) ∨
    ((LastBare lines ∧ colon ∉ bodyText body) ∧
      ∃ sets : List Header, parseHeaders fuel pr (joinLines lines ++ crlf ++ (body ++ [0])) =
        some (-1, sets.foldl setHeader pr)) ∨
    ((LastBare lines ∧ Unended body) ∧
      parseHeaders fuel pr (joinLines lines ++ crlf ++ (body ++ [0])) = none) := by
  by_cases tied : ¬ LastBare lines ∨ ∃ key value, HeaderAt (body ++ [0]) key value
  · exact .inl (parseHeaders_blankLine each tied enough)
  · rw [not_or, not_not] at tied
    by_cases inside : colon ∈ bodyText body
    · have unended : Unended body := ⟨inside, tied.2⟩
      exact .inr (.inr ⟨⟨tied.1, unended⟩, parseHeaders_unended each tied.1 unended enough⟩)
    · exact .inr (.inl ⟨⟨tied.1, inside⟩, parseHeaders_rejected each tied.1 inside enough⟩)

end

/-! ## Whole requests -/

/-- The last line of each key has a space right behind its colon. -/
def SpacedLast (lines : List Bytes) : Prop :=
  ∀ l rest, l :: rest <:+ lines → lineKey l ∉ rest.map lineKey →
    (lineBehind l).head? = some space

theorem readHeader_eq_stated {l next : Bytes} :
    readHeader l next = statedHeader l ↔ (lineBehind l).head? = some space := by
  rw [readHeader, statedHeader, Prod.mk.injEq, eq_self, true_and]
  cases lineBehind l with
  | nil => simp
  | cons c value => by_cases spaced : c = space <;> simp [spaced]

theorem readHeaders_keys (lines : List Bytes) :
    (readHeaders lines).map Prod.fst = lines.map lineKey := by
  induction lines with
  | nil => rfl
  | cons l rest ih => rw [readHeaders, List.map_cons, List.map_cons, ih, readHeader_fst]

theorem latest_readHeaders {lines : List Bytes} :
    latest (readHeaders lines) = latest (lines.map statedHeader) ↔ SpacedLast lines := by
  induction lines with
  | nil =>
      refine ⟨fun _ l rest suffix => ?_, fun _ => rfl⟩
      cases List.suffix_nil.mp suffix
  | cons l rest ih =>
      have stated : (rest.map statedHeader).map Prod.fst = rest.map lineKey := by
        rw [List.map_map]
        rfl
      have tail : SpacedLast (l :: rest) ↔
          (lineKey l ∉ rest.map lineKey → (lineBehind l).head? = some space) ∧
            SpacedLast rest := by
        refine ⟨fun spaced => ⟨spaced l rest List.suffix_rfl, fun m more suffix =>
          spaced m more (suffix.trans (List.suffix_cons l rest))⟩, ?_⟩
        intro given m more suffix
        rcases List.suffix_cons_iff.mp suffix with same | later
        · obtain ⟨rfl, rfl⟩ := List.cons.inj same
          exact given.1
        · exact given.2 m more later
      rw [readHeaders, List.map_cons, latest, latest, readHeaders_keys, stated, readHeader_fst,
        statedHeader_fst, tail]
      by_cases again : lineKey l ∈ rest.map lineKey
      · rw [if_pos again, if_pos again, ih]
        exact ⟨fun spaced => ⟨fun last => absurd again last, spaced⟩, fun given => given.2⟩
      · rw [if_neg again, if_neg again, List.cons.injEq, readHeader_eq_stated, ih]
        exact and_congr_left fun _ => ⟨fun spaced _ => spaced, fun given => given again⟩

section

variable {errno : Errno} {line body : Bytes} {lines : List Bytes} {parsed : RequestLine}

/-- A request of header lines: the request line is parsed, and then the lines. -/
theorem parsedRequestParse_request {pr : ParsedRequest} (unused : pr.buf = none)
    (plain : Plain line) (each : ∀ l ∈ lines, HeaderLine l)
    (short : (line ++ crlf ++ (joinLines lines ++ crlf ++ body)).length ≤ 65535) :
    parsedRequestParse errno pr (line ++ crlf ++ (joinLines lines ++ crlf ++ body)) =
      match parseRequestLine errno line with
      | .error .outOfBounds => none
      | .error .rejected => some (-1, { pr with buf := none, path := none })
      | .ok parsed =>
          parseHeaders ((line ++ crlf ++ (joinLines lines ++ crlf ++ body)).length + 1)
            (pr.withLine parsed) (joinLines lines ++ crlf ++ (body ++ [0])) := by
  have clean : 0 ∉ joinLines lines ++ crlf := by
    rw [List.mem_append, not_or]
    exact ⟨joinLines_clean each, zero_notMem_crlf⟩
  have read := cstring_behind_text body clean
  rw [← List.append_assoc] at read
  rw [parsedRequestParse_split unused plain.1 plain.2 read (blankLine_joinLines _ _ _) short]
  cases parseRequestLine errno line with
  | error stop =>
      cases stop with
      | outOfBounds => rfl
      | rejected => rfl
  | ok parsed =>
      show parseHeaders _ _ (joinLines lines ++ crlf ++ body ++ [0]) = _
      rw [List.append_assoc _ body [0]]

/-- A request that is too long. -/
theorem parsedRequestParse_long {buf : Bytes} (long : 65535 < buf.length) :
    parsedRequestParse errno parsedRequestCreate buf = some (-1, parsedRequestCreate) := by
  have fresh : ¬ parsedRequestCreate.buf.isSome = true := Bool.false_ne_true
  rw [parsedRequestParse, if_neg fresh, if_pos (.inr long)]

/-- Header lines read one at a time: a request is refused if a line has no colon, and only then,
and otherwise each line gives the header that it states, the last line of a key winning. -/
def ReadByLines (errno : Errno) (buf : Bytes) (lines : List Bytes) : Prop :=
  ∃ ret pr, parsedRequestParse errno parsedRequestCreate buf = some (ret, pr) ∧
    (ret = -1 ↔ ∃ l ∈ lines, colon ∉ l) ∧
    ((∀ l ∈ lines, colon ∈ l) → ret = 0 ∧ pr.liveHeaders = latest (lines.map statedHeader))

theorem readByLines_of_result {buf : Bytes} {ret : Int} {pr : ParsedRequest}
    (parse : parsedRequestParse errno parsedRequestCreate buf = some (ret, pr)) :
    ReadByLines errno buf lines ↔ (ret = -1 ↔ ∃ l ∈ lines, colon ∉ l) ∧
      ((∀ l ∈ lines, colon ∈ l) →
        ret = 0 ∧ pr.liveHeaders = latest (lines.map statedHeader)) := by
  refine ⟨?_, fun given => ⟨ret, pr, parse, given⟩⟩
  intro given
  obtain ⟨ret', pr', parse', read⟩ := given
  rw [parse] at parse'
  cases parse'
  exact read

section

variable (accepted : parseRequestLine errno line = .ok parsed) (plain : Plain line)
  (each : ∀ l ∈ lines, HeaderLine l)
include accepted plain each

/-- Behind an accepted request line the loop has turns enough for the whole text. -/
theorem parsedRequestParse_headers
    (short : (line ++ crlf ++ (joinLines lines ++ crlf ++ body)).length ≤ 65535) :
    ∃ fuel, (joinLines lines ++ crlf ++ (body ++ [0])).length ≤ fuel ∧
      parsedRequestParse errno parsedRequestCreate
          (line ++ crlf ++ (joinLines lines ++ crlf ++ body)) =
        parseHeaders fuel (parsedRequestCreate.withLine parsed)
          (joinLines lines ++ crlf ++ (body ++ [0])) := by
  refine ⟨(line ++ crlf ++ (joinLines lines ++ crlf ++ body)).length + 1, ?_, ?_⟩
  · simp only [List.length_append, List.length_singleton]
    omega
  · rw [parsedRequestParse_request rfl plain each short, accepted]

theorem readByLines_of_colons (colons : ∀ l ∈ lines, colon ∈ l)
    (short : (line ++ crlf ++ (joinLines lines ++ crlf ++ body)).length ≤ 65535) :
    ReadByLines errno (line ++ crlf ++ (joinLines lines ++ crlf ++ body)) lines ↔
      SpacedLast lines := by
  obtain ⟨fuel, enough, parse⟩ := parsedRequestParse_headers accepted plain each short
  rw [parseHeaders_colons each colons enough] at parse
  have live :
      ((readHeaders lines).foldl setHeader (parsedRequestCreate.withLine parsed)).liveHeaders =
        latest (readHeaders lines) := foldl_setHeader_live rfl _
  rw [readByLines_of_result parse, live, latest_readHeaders]
  refine ⟨fun given => (given.2 colons).2, fun spaced => ⟨⟨?_, ?_⟩, fun _ => ⟨rfl, spaced⟩⟩⟩
  · intro refused
    cases refused
  · intro given
    obtain ⟨l, member, bare⟩ := given
    exact absurd (colons l member) bare

/-- With a line that has no colon the request must be refused, which is up to the last line
and the body. -/
theorem readByLines_of_bare (some : ∃ l ∈ lines, colon ∉ l)
    (short : (line ++ crlf ++ (joinLines lines ++ crlf ++ body)).length ≤ 65535) :
    ReadByLines errno (line ++ crlf ++ (joinLines lines ++ crlf ++ body)) lines ↔
      LastBare lines ∧ colon ∉ bodyText body := by
  obtain ⟨fuel, enough, parse⟩ := parsedRequestParse_headers accepted plain each short
  have notAll : ¬ ∀ l ∈ lines, colon ∈ l := by
    intro colons
    obtain ⟨l, member, bare⟩ := some
    exact bare (colons l member)
  by_cases refused : LastBare lines ∧ colon ∉ bodyText body
  · obtain ⟨sets, run⟩ := parseHeaders_rejected each refused.1 refused.2 enough
    rw [readByLines_of_result (parse.trans run)]
    exact ⟨fun _ => refused,
      fun _ => ⟨⟨fun _ => some, fun _ => rfl⟩, fun colons => absurd colons notAll⟩⟩
  · refine ⟨fun given => ?_, fun given => absurd given refused⟩
    rcases parseHeaders_outcome (parsedRequestCreate.withLine parsed) each enough with
      ⟨sets, -, run⟩ | ⟨here, -⟩ | ⟨-, run⟩
    · rw [readByLines_of_result (parse.trans run)] at given
      cases given.1.mpr some
    · exact here
    · obtain ⟨ret, pr, parse', -⟩ := given
      cases (parse.trans run).symm.trans parse'

/-- The lines are read one at a time exactly when each has a colon and the last one of each key a
space behind it, or when one has none and the search for a colon in the last line fails, in that
line and in the body. -/
theorem readByLines_iff (body : Bytes) :
    ReadByLines errno (line ++ crlf ++ (joinLines lines ++ crlf ++ body)) lines ↔
      ((line ++ crlf ++ (joinLines lines ++ crlf ++ body)).length ≤ 65535 ∧
        (∀ l ∈ lines, colon ∈ l) ∧ SpacedLast lines) ∨
      ((∃ l ∈ lines, colon ∉ l) ∧
        (65535 < (line ++ crlf ++ (joinLines lines ++ crlf ++ body)).length ∨
          (LastBare lines ∧ colon ∉ bodyText body))) := by
  by_cases colons : ∀ l ∈ lines, colon ∈ l
  · have noBare : ¬ ∃ l ∈ lines, colon ∉ l := by
      intro given
      obtain ⟨l, member, bare⟩ := given
      exact bare (colons l member)
    by_cases short : (line ++ crlf ++ (joinLines lines ++ crlf ++ body)).length ≤ 65535
    · rw [readByLines_of_colons accepted plain each colons short]
      exact ⟨fun spaced => .inl ⟨short, colons, spaced⟩,
        fun given => given.elim (fun fine => fine.2.2) fun bare => absurd bare.1 noBare⟩
    · rw [readByLines_of_result (parsedRequestParse_long (Nat.lt_of_not_le short))]
      exact ⟨fun given => absurd (given.1.mp rfl) noBare,
        fun given => given.elim (fun fine => absurd fine.1 short) fun bare => absurd bare.1 noBare⟩
  · have some : ∃ l ∈ lines, colon ∉ l := by
      by_contra none
      exact colons fun l member => by_contra fun bare => none ⟨l, member, bare⟩
    by_cases short : (line ++ crlf ++ (joinLines lines ++ crlf ++ body)).length ≤ 65535
    · rw [readByLines_of_bare accepted plain each some short]
      refine ⟨fun bare => .inr ⟨some, .inr bare⟩, fun given => ?_⟩
      rcases given with fine | ⟨-, long | bare⟩
      · exact absurd fine.2.1 colons
      · exact absurd short (Nat.not_le_of_lt long)
      · exact bare
    · rw [readByLines_of_result (parsedRequestParse_long (Nat.lt_of_not_le short))]
      exact ⟨fun _ => .inr ⟨some, .inl (Nat.lt_of_not_le short)⟩,
        fun _ => ⟨⟨fun _ => some, fun _ => rfl⟩, fun all => absurd all colons⟩⟩

end

end

theorem rootRequest_plain : Plain rootRequest := by decide

/-- One header line, `A: 1`. -/
theorem readByLines_iff_oneHeader :
    ReadByLines .other (rootRequest ++ crlf ++ (joinLines [[65, 58, 32, 49]] ++ crlf ++ []))
      [[65, 58, 32, 49]] := by
  have accepted : ∃ parsed, parseRequestLine .other rootRequest = .ok parsed := ⟨_, rfl⟩
  obtain ⟨parsed, accepted⟩ := accepted
  have each : ∀ l ∈ [[65, 58, 32, 49]], HeaderLine l := by
    intro l member
    obtain rfl := List.mem_singleton.mp member
    exact ⟨by decide, by decide⟩
  apply (readByLines_iff accepted rootRequest_plain each []).mpr
  refine .inl ⟨by decide, by decide, ?_⟩
  exact latest_readHeaders.mp rfl

/-- A header line `A`, and a body `b: c` with a line end: the colon is taken from the body, and
the request is accepted. -/
theorem bareLine_accepted :
    ¬ ReadByLines .other
      (rootRequest ++ crlf ++ (joinLines [[65]] ++ crlf ++ [98, 58, 32, 99, 13, 10])) [[65]] := by
  have parse : ∃ pr, parsedRequestParse .other parsedRequestCreate
      (rootRequest ++ crlf ++ (joinLines [[65]] ++ crlf ++ [98, 58, 32, 99, 13, 10])) =
        some (0, pr) := ⟨_, rfl⟩
  obtain ⟨pr, parse⟩ := parse
  rw [readByLines_of_result parse]
  intro given
  cases given.1.mpr ⟨[65], List.mem_singleton.mpr rfl, by decide⟩

end CompNet.Proxy
