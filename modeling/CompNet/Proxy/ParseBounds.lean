import CompNet.Proxy.HeaderLines

/-!
# What the parser does to any buffer

A buffer is refused at once, or it is a request line, header lines, a blank line and a body
(`RequestForm`), and then the request line and the last header line decide what happens.  From
this follow the buffers on which the parser leaves its copies of the request, and those on which
it fails with fields and headers left in the object.
-/

namespace CompNet.Proxy

open CompNet.Lib

/-! ## The form of a request -/

/-- A buffer with a blank line before its first NUL, of a length that the parser takes. -/
structure RequestForm (buf line : Bytes) (lines : List Bytes) (body : Bytes) : Prop where
  whole : buf = line ++ crlf ++ (joinLines lines ++ crlf ++ body)
  short : buf.length ≤ 65535
  plain : Plain line
  each : ∀ l ∈ lines, HeaderLine l

theorem exists_requestForm {buf : Bytes} (short : buf.length ≤ 65535)
    (blank : crlf ++ crlf <:+: bodyText buf) :
    ∃ line lines body, RequestForm buf line lines body := by
  obtain ⟨tail, whole⟩ : bodyText buf <+: buf := List.takeWhile_prefix _
  obtain ⟨clean, -⟩ := cstring_eq_some (cstring_body buf)
  cases found : strstr crlf (bodyText buf) with
  | none => exact absurd ((List.infix_append' [] crlf crlf).trans blank) (strstr_eq_none found)
  | some i =>
      obtain ⟨line, rest, split, -, fresh⟩ := strstr_eq_some found
      have oneLine := fresh (by simp [crlf])
      rw [split] at blank clean whole
      simp only [List.mem_append, not_or] at clean
      obtain ⟨lines, body, rfl, each⟩ := exists_headerLines oneLine clean.2 blank
      exact ⟨line, lines, body ++ tail, by rw [← whole]; simp, short, ⟨clean.1.1, oneLine⟩, each⟩

section

variable {errno : Errno} {pr : ParsedRequest} {buf line body : Bytes} {lines : List Bytes}
  (form : RequestForm buf line lines body) (unused : pr.buf = none)
include form unused

theorem RequestForm.parse_addressLast (last : AddressLast line) :
    parsedRequestParse errno pr buf = none := by
  have short := form.short
  rw [form.whole] at short ⊢
  rw [parsedRequestParse_request unused form.plain form.each short,
    parseRequestLine_addressLast form.plain.1 last]

theorem RequestForm.parse_goodLine (good : GoodLine errno line) :
    ∃ (p : Pieces) (fuel : Nat), p.WellCut ∧ p.line = line ∧
      (joinLines lines ++ crlf ++ (body ++ [0])).length ≤ fuel ∧
      parsedRequestParse errno pr buf = parseHeaders fuel (pr.withLine p.requestLine)
        (joinLines lines ++ crlf ++ (body ++ [0])) := by
  obtain ⟨p, cut, split, fine⟩ := good
  have accepted : parseRequestLine errno line = .ok p.requestLine := by
    have clean := form.plain.1
    rw [← split] at clean ⊢
    exact parseRequestLine_pieces clean cut fine
  have short := form.short
  rw [form.whole] at short ⊢
  refine ⟨p, (line ++ crlf ++ (joinLines lines ++ crlf ++ body)).length + 1, cut, split, ?_, ?_⟩
  · simp only [List.length_append, List.length_singleton]
    omega
  · rw [parsedRequestParse_request unused form.plain form.each short, accepted]

end

/-- What the parser does: it refuses the buffer before the headers and leaves the object as it
was, or it runs into the end of the request line, or it goes on with the headers. -/
theorem parsedRequestParse_cases (errno : Errno) {pr : ParsedRequest} (unused : pr.buf = none)
    (buf : Bytes) :
    (∃ pr', parsedRequestParse errno pr buf = some (-1, pr') ∧
      (pr' = pr ∨ pr' = { pr with buf := none, path := none })) ∨
    ∃ line lines body, RequestForm buf line lines body ∧
      (AddressLast line ∨ GoodLine errno line) := by
  have fresh : ¬ pr.buf.isSome = true := by
    rw [unused]
    exact Bool.false_ne_true
  by_cases size : buf.length < 4 ∨ buf.length > 65535
  · exact .inl ⟨pr, by rw [parsedRequestParse, if_neg fresh, if_pos size], .inl rfl⟩
  have short : buf.length ≤ 65535 := by omega
  cases found : strstr (crlf ++ crlf) (bodyText buf) with
  | none =>
      refine .inl ⟨pr, ?_, .inl rfl⟩
      simp only [parsedRequestParse, if_neg fresh, if_neg size, cstring_body,
        Option.bind_eq_bind, Option.bind_some, found, Option.isNone_none, if_true]
  | some i =>
      obtain ⟨before, behind, split, -⟩ := strstr_eq_some found
      obtain ⟨line, lines, body, form⟩ := exists_requestForm short ⟨before, behind, split.symm⟩
      rcases parseRequestLine_cases errno form.plain.1 with last | rejected | good
      · exact .inr ⟨line, lines, body, form, .inl last⟩
      · left
        have short := form.short
        refine ⟨_, ?_, .inr rfl⟩
        rw [form.whole] at short ⊢
        rw [parsedRequestParse_request unused form.plain form.each short, rejected]
      · exact .inr ⟨line, lines, body, form, .inr good⟩

theorem parsedRequestCreate_unused : parsedRequestCreate.buf = none := rfl

/-! ## Bounds -/

/-- The parser reads outside its copy of the request line where the address is the last word of
the line, and outside its copy of the request, or from a `NULL` on, where it looks for the header
of the last line in the body and finds a colon there but no end. -/
def Overruns (errno : Errno) (buf : Bytes) : Prop :=
  ∃ line lines body, RequestForm buf line lines body ∧
    (AddressLast line ∨ (GoodLine errno line ∧ LastBare lines ∧ Unended body))

/-- The buffers on which the parser stays in bounds, whatever object it is given. -/
theorem parsedRequestParse_inBounds_iff (errno : Errno) (pr : ParsedRequest) (buf : Bytes) :
    parsedRequestParse errno pr buf ≠ none ↔ pr.buf.isSome = true ∨ ¬ Overruns errno buf := by
  by_cases used : pr.buf.isSome = true
  · rw [parsedRequestParse, if_pos used]
    exact ⟨fun _ => .inl used, fun _ => Option.some_ne_none _⟩
  have unused : pr.buf = none := by simpa using used
  constructor
  · intro inside
    right
    intro overruns
    obtain ⟨line, lines, body, form, last | ⟨good, bare, unended⟩⟩ := overruns
    · exact inside (form.parse_addressLast unused last)
    · obtain ⟨p, fuel, -, -, enough, parse⟩ := form.parse_goodLine unused good
      rw [parseHeaders_unended form.each bare unended enough] at parse
      exact inside parse
  · intro given
    have fine : ¬ Overruns errno buf := given.resolve_left used
    rcases parsedRequestParse_cases errno unused buf with
      ⟨pr', parse, -⟩ | ⟨line, lines, body, form, last | good⟩
    · rw [parse]
      exact Option.some_ne_none _
    · exact absurd ⟨line, lines, body, form, .inl last⟩ fine
    · obtain ⟨p, fuel, -, -, enough, parse⟩ := form.parse_goodLine unused good
      rw [parse]
      rcases parseHeaders_outcome (pr.withLine p.requestLine) form.each enough with
        ⟨sets, -, run⟩ | ⟨-, sets, run⟩ | ⟨⟨bare, unended⟩, -⟩
      · rw [run]
        exact Option.some_ne_none _
      · rw [run]
        exact Option.some_ne_none _
      · exact absurd ⟨line, lines, body, form, .inr ⟨good, bare, unended⟩⟩ fine

/-- A header line `A` and a body `b:`: the value is taken to start behind the terminator. -/
theorem bareLine_overruns :
    4 ≤ (rootRequest ++ crlf ++ [65] ++ crlf ++ crlf ++ [98, 58]).length ∧
      (rootRequest ++ crlf ++ [65] ++ crlf ++ crlf ++ [98, 58]).length ≤ 65535 ∧
      parsedRequestParse .other parsedRequestCreate
        (rootRequest ++ crlf ++ [65] ++ crlf ++ crlf ++ [98, 58]) = none :=
  ⟨by decide, by decide, rfl⟩

/-! ## Failures -/

/-- An object as it was made: it holds nothing, is printed as nothing, and takes a request. -/
structure LeftEmpty (pr : ParsedRequest) : Prop where
  buf : pr.buf = none
  path : pr.path = none
  headers : pr.liveHeaders = []
  totalLen : parsedRequestTotalLen pr = 0
  unparse : ∀ buflen, parsedRequestUnparse pr buflen = (-1, [])
  again : ∀ errno buf, (parsedRequestParse errno pr buf).map Prod.fst =
    (parsedRequestParse errno parsedRequestCreate buf).map Prod.fst

theorem parsedRequestCreate_leftEmpty : LeftEmpty parsedRequestCreate :=
  ⟨rfl, rfl, rfl, rfl, fun _ => rfl, fun _ _ => rfl⟩

/-- The last exit: a good request line, and a last header line without a colon, which is not
found in the body either. -/
def HeaderRefused (errno : Errno) (buf : Bytes) : Prop :=
  ∃ line lines body, RequestForm buf line lines body ∧ GoodLine errno line ∧ LastBare lines ∧
    colon ∉ bodyText body

/-- A failed parse leaves the object empty, but for its last exit. -/
theorem leftEmpty_iff (errno : Errno) (buf : Bytes) :
    (∀ pr, parsedRequestParse errno parsedRequestCreate buf = some (-1, pr) → LeftEmpty pr) ↔
      ¬ HeaderRefused errno buf := by
  constructor
  · intro empty refused
    obtain ⟨line, lines, body, form, good, bare, noColon⟩ := refused
    obtain ⟨p, fuel, -, -, enough, parse⟩ :=
      form.parse_goodLine parsedRequestCreate_unused good
    obtain ⟨sets, run⟩ := parseHeaders_rejected form.each bare noColon enough
    have left := (empty _ (parse.trans run)).buf
    rw [foldl_setHeader_buf] at left
    cases left
  · intro fine pr parse
    rcases parsedRequestParse_cases errno parsedRequestCreate_unused buf with
      ⟨pr', refused, same⟩ | ⟨line, lines, body, form, last | good⟩
    · rw [refused] at parse
      cases parse
      rcases same with rfl | rfl
      · exact parsedRequestCreate_leftEmpty
      · exact parsedRequestCreate_leftEmpty
    · rw [form.parse_addressLast rfl last] at parse
      cases parse
    · obtain ⟨p, fuel, -, -, enough, run⟩ :=
        form.parse_goodLine parsedRequestCreate_unused good
      rw [run] at parse
      rcases parseHeaders_outcome (parsedRequestCreate.withLine p.requestLine) form.each enough with
        ⟨sets, -, accepted⟩ | ⟨⟨bare, noColon⟩, -⟩ | ⟨-, overrun⟩
      · rw [accepted] at parse
        cases parse
      · exact absurd ⟨line, lines, body, form, good, bare, noColon⟩ fine
      · rw [overrun] at parse
        cases parse

/-- `A: 1` and then a line `B`: the header and the request line stay in the object. -/
theorem secondLine_leftHeader :
    ∃ pr, parsedRequestParse .other parsedRequestCreate
        (rootRequest ++ crlf ++ [65, 58, 32, 49] ++ crlf ++ [66] ++ crlf ++ crlf) =
      some (-1, pr) ∧ pr.liveHeaders = [([65], [49])] ∧ ¬ LeftEmpty pr := by
  refine ⟨_, rfl, rfl, ?_⟩
  intro empty
  cases empty.buf

end CompNet.Proxy
