import CompNet.Proxy.HeaderLines

/-!
# Printing and parsing

A request object with well-formed fields and headers is printed as a request line, a header line
for each header with a space behind its colon, and a blank line.  The parser reads them back in
order, and nothing of what follows the blank line.
-/

namespace CompNet.Proxy

open CompNet.Lib

/-! ## Ports -/

/-- A numeric port that is not 0.  The parser keeps the number in an `int`, and what it takes for a
bad port is a 0 there while `errno` is `EINVAL`. -/
structure NumericPort (errno : Errno) (port : Bytes) : Prop where
  digits : ∀ c ∈ port, isdigit c = true
  nonzero : errno = .einval → digitsValue port % 2 ^ 32 ≠ 0

theorem strtol_digits {port : Bytes} (errno : Errno) (digits : ∀ c ∈ port, isdigit c = true) :
    strtol errno port = clampLong errno (digitsValue port) := by
  cases port with
  | nil => rfl
  | cons c rest =>
      have all : (c :: rest).takeWhile isdigit = c :: rest := List.takeWhile_eq_self_iff.mpr digits
      rw [strtol, scanSign_digits (digits c List.mem_cons_self)]
      dsimp only
      rw [all, Int.one_mul]

theorem NumericPort.portBad_eq_false {errno : Errno} {port : Bytes}
    (numeric : NumericPort errno port) : portBad errno (some port) = false := by
  cases errno with
  | other => exact portBad_other _
  | einval =>
      have value := numeric.nonzero rfl
      rw [portBad, strtol_digits _ numeric.digits, clampLong]
      split
      · rfl
      · split
        · rfl
        · have notZero : ((digitsValue port : Int) % 2 ^ 32 == 0) = false := by
            rw [beq_eq_false_iff_ne]
            omega
          rw [notZero, Bool.false_and]

/-! ## Headers -/

/-- A key and a value that can be printed. -/
structure PlainHeader (h : Header) : Prop where
  key : Plain h.1 ∧ colon ∉ h.1
  value : Plain h.2

/-- A printed header line without its end. -/
def headerText (h : Header) : Bytes := h.1 ++ colon :: space :: h.2

theorem printHeaders_lines (slots : List (Option Header)) :
    printHeaders slots = joinLines ((slots.filterMap id).map headerText) ++ crlf := by
  have one : printHeader = (· ++ crlf) ∘ headerText := by
    funext h
    simp [printHeader, headerText]
  rw [printHeaders_eq, joinLines, List.map_map, one]

theorem PlainHeader.headerLine {h : Header} (plain : PlainHeader h) :
    HeaderLine (headerText h) := by
  refine ⟨by simp [headerText], plain.key.1.join ?_ colon_apart⟩
  exact plain_nil.join plain.value space_apart

theorem PlainHeader.headerLines {headers : List Header} (plain : ∀ h ∈ headers, PlainHeader h) :
    ∀ l ∈ headers.map headerText, HeaderLine l := by
  intro l member
  obtain ⟨h, inside, rfl⟩ := List.mem_map.mp member
  exact (plain h inside).headerLine

/-- A printed line is read as it was. -/
theorem readHeaders_printed {headers : List Header} (plain : ∀ h ∈ headers, PlainHeader h) :
    readHeaders (headers.map headerText) = headers := by
  induction headers with
  | nil => rfl
  | cons h rest ih =>
      have fresh := (plain h List.mem_cons_self).key.2
      rw [List.map_cons, readHeaders, ih fun h member => plain h (List.mem_cons_of_mem _ member),
        readHeader, headerText, lineKey_eq fresh, lineBehind_eq fresh]

/-! ## Requests -/

section

variable {errno : Errno} {f : Fields} {headers : List Header}

/-- Every well-formed list of fields and of headers is that of some object. -/
theorem exists_request (form : f.WellFormed) (plain : PlainFields f) (headers : List Header) :
    ∃ pr : ParsedRequest, pr.fields = some f ∧ pr.liveHeaders = headers := by
  refine ⟨{ parsedRequestCreate.withLine (f.pieces [] []).requestLine with
    headers := headers.map some }, ?_, ?_⟩
  · show (f.pieces [] []).requestLine.fields = some f
    rw [Pieces.requestLine_fields (plain.line form).1, form.pieces_fields]
  · simp [ParsedRequest.liveHeaders, List.filterMap_map]

/-- Parsing undoes printing, whatever follows the printed text. -/
theorem parse_printed {pr : ParsedRequest} {buflen : Nat} {text more : Bytes}
    (fields : pr.fields = some f) (form : f.WellFormed) (plain : PlainFields f)
    (port : ∀ port, f.port = some port → NumericPort errno port)
    (headers : ∀ h ∈ pr.liveHeaders, PlainHeader h)
    (distinct : (pr.liveHeaders.map Prod.fst).Nodup)
    (printed : parsedRequestUnparse pr buflen = (0, text))
    (short : (text ++ more).length ≤ 65535) :
    ∃ pr', parsedRequestParse errno parsedRequestCreate (text ++ more) = some (0, pr') ∧
      pr'.fields = some f ∧ pr'.liveHeaders = pr.liveHeaders := by
  have plainLine := plain.line form
  have cut : (f.pieces [] []).WellCut := form.pieces_wellCut (by simp) (by simp)
  have fine : portBad errno (storedPort (f.pieces [] []).behindHost) = false := by
    show portBad errno (storedPort (portText f.port)) = false
    rw [form.stored_port]
    cases some : f.port with
    | none => rfl
    | some text => exact (port text some).portBad_eq_false
  have accepted := parseRequestLine_pieces plainLine.1 cut fine
  have each := PlainHeader.headerLines headers
  have colons : ∀ l ∈ pr.liveHeaders.map headerText, colon ∈ l := by
    intro l member
    obtain ⟨h, inside, rfl⟩ := List.mem_map.mp member
    simp [headerText]
  have whole : text ++ more = (f.pieces [] []).line ++ crlf ++
      (joinLines (pr.liveHeaders.map headerText) ++ crlf ++ more) := by
    rw [parsedRequestUnparse_text fields printed, printRequestLine_eq, printHeaders_lines]
    simp [ParsedRequest.liveHeaders]
  rw [whole] at short ⊢
  obtain ⟨fuel, enough, parse⟩ := parsedRequestParse_headers accepted plainLine each short
  refine ⟨_, parse.trans (parseHeaders_colons each colons enough), ?_, ?_⟩
  · rw [foldl_setHeader_fields, ParsedRequest.fields_withLine,
      Pieces.requestLine_fields plainLine.1, form.pieces_fields]
  · rw [foldl_setHeader_live rfl, readHeaders_printed headers, latest_of_nodup distinct]

end

/-- `GET http://h:8080/ HTTP/1.0`. -/
def rootFields : Fields where
  method := [71, 69, 84]
  protocol := [104, 116, 116, 112]
  host := [104]
  port := some [56, 48, 56, 48]
  path := [47]
  version := [72, 84, 84, 80, 47, 49, 46, 48]

/-- With a header `A: 1`, a NUL and a colon behind the printed text, and `EINVAL` to begin with. -/
theorem parse_printed_rootFields :
    ∃ pr pr' text, pr.fields = some rootFields ∧ pr.liveHeaders = [([65], [49])] ∧
      parsedRequestUnparse pr (parsedRequestTotalLen pr) = (0, text) ∧
      parsedRequestParse .einval parsedRequestCreate (text ++ [0, 58]) = some (0, pr') ∧
      pr'.fields = some rootFields ∧ pr'.liveHeaders = [([65], [49])] := by
  have form : rootFields.WellFormed := by
    refine ⟨?_, ?_, ?_, ?_, ⟨[], rfl, by simp, by simp⟩, ⟨[49, 46, 48], rfl⟩⟩
    · simp [rootFields, space]
    · simp [rootFields, space, colon, slash]
    · simp [rootFields, space, colon, slash]
    · intro port some
      cases some
      simp [space, slash]
  have plain : PlainFields rootFields := by
    refine ⟨by decide, by decide, by decide, ?_, by decide, by decide⟩
    intro port some
    cases some
    decide
  obtain ⟨pr, fields, live⟩ := exists_request form plain [([65], [49])]
  have headers : ∀ h ∈ pr.liveHeaders, PlainHeader h := by
    intro h member
    rw [live, List.mem_singleton] at member
    subst member
    exact ⟨by decide, by decide⟩
  have port : ∀ port, rootFields.port = some port → NumericPort .einval port := by
    intro port some
    cases some
    exact ⟨by simp [isdigit], fun _ => by decide⟩
  have short : (printRequestLine rootFields ++ printHeaders pr.headers ++ [0, 58]).length ≤
      65535 := by
    rw [printHeaders_lines, ← ParsedRequest.liveHeaders, live]
    decide
  have lengths := short
  rw [List.length_append, List.length_append, length_printRequestLine] at lengths
  have printed := parsedRequestUnparse_totalLen fields (by omega) (by omega)
  obtain ⟨pr', parse, fields', live'⟩ :=
    parse_printed fields form plain port headers (by simp [live]) printed short
  exact ⟨pr, pr', _, fields, live, printed, parse, fields', live'.trans live⟩

end CompNet.Proxy
