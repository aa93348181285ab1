import CompNet.Proxy.AbsoluteUri
import CompNet.Proxy.Headers

/-!
# Parsing what was printed

A request that was parsed is printed and parsed again.  The printed request line
is of the absolute-URI form, whatever the first line looked like.  Among the live
headers the further lines of a key stand behind it (`Covered`), so that the
headers which the second parse sets on the way are all set again later, and the
same headers are live in the same order.
-/

namespace CompNet.Proxy

open CompNet.Lib

/-! ## Live headers -/

/-- The keys are distinct, and the further lines of a key are keys behind it; where
they end in a blank line, they are all there is. -/
def Covered : List Header → Prop
  | [] => True
  | h :: rest =>
      h.1 ∉ rest.map Prod.fst ∧
      (if (keyLines h.1).2 then h :: rest = lineSets h
        else ∀ line ∈ (keyLines h.1).1, line ∈ rest.map Prod.fst) ∧
      Covered rest

/-- The lines of a key are set right behind it. -/
theorem Linked.lineSets_prefix {h : Header} {rest : List Header} (linked : Linked (h :: rest)) :
    lineSets h <+: h :: rest ∧ ((keyLines h.1).2 = true → h :: rest = lineSets h) := by
  induction rest generalizing h with
  | nil =>
      cases next : nextLine h.1 with
      | none =>
          rw [lineSets, keyLines_none next]
          exact ⟨List.prefix_rfl, fun _ => rfl⟩
      | some line =>
          have tail := linked.1 line next
          by_cases blank : crlf.isPrefixOf line = true
          · rw [lineSets, keyLines_some next, if_pos blank]
            exact ⟨List.prefix_rfl, fun _ => rfl⟩
          · rw [if_neg blank] at tail
            obtain ⟨rest, none⟩ := tail
            cases none
  | cons e rest ih =>
      cases next : nextLine h.1 with
      | none =>
          rw [lineSets, keyLines_none next]
          exact ⟨⟨e :: rest, rfl⟩, fun last => absurd last (by decide)⟩
      | some line =>
          have tail := linked.1 line next
          by_cases blank : crlf.isPrefixOf line = true
          · rw [if_pos blank] at tail
            cases tail
          · rw [if_neg blank] at tail
            obtain ⟨rest', same⟩ := tail
            obtain ⟨rfl, rfl⟩ := List.cons.inj same
            obtain ⟨starts, whole⟩ := ih linked.2
            obtain ⟨sets, ends⟩ := lineSets_next next blank
            rw [sets, ends]
            refine ⟨(List.prefix_cons_inj h).mpr starts, fun last => ?_⟩
            rw [← whole last]

/-- What is live after the first parse. -/
theorem Linked.covered {sets : List Header} (linked : Linked sets) : Covered (latest sets) := by
  induction sets with
  | nil => trivial
  | cons h rest ih =>
      by_cases again : h.1 ∈ rest.map Prod.fst
      · rw [latest, if_pos again]
        exact ih linked.2
      · rw [latest, if_neg again]
        obtain ⟨starts, whole⟩ := linked.lineSets_prefix
        refine ⟨by rwa [mem_keys_latest], ?_, ih linked.2⟩
        split
        · next last =>
            have nodup := (lineSets_keys h).2
            rw [← whole last, List.map_cons, List.nodup_cons] at nodup
            rw [latest_of_nodup nodup.2]
            exact whole last
        · intro line member
          rw [mem_keys_latest]
          have set : (line, h.2) ∈ rest := by
            obtain ⟨tail, append⟩ := starts
            rw [lineSets, List.cons_append] at append
            rw [← (List.cons.inj append).2]
            exact List.mem_append_left _ (List.mem_map_of_mem member)
          exact List.mem_map_of_mem set

/-- What is live after the second parse. -/
theorem Covered.latest_lineSetsAll {headers : List Header} (covered : Covered headers) :
    latest (lineSetsAll headers) = headers := by
  induction headers with
  | nil => rfl
  | cons h rest ih =>
      obtain ⟨fresh, lines, later⟩ := covered
      have rest_eq := ih later
      rw [lineSetsAll]
      split at lines
      · next last =>
          rw [if_pos last, List.append_nil, latest_of_nodup (lineSets_keys h).2, lines]
      · next more =>
          have keys : ∀ k, k ∈ (lineSetsAll rest).map Prod.fst ↔ k ∈ rest.map Prod.fst := by
            intro k
            rw [← mem_keys_latest, rest_eq]
          have tails : ∀ e ∈ (keyLines h.1).1.map (·, h.2),
              e.1 ∈ (lineSetsAll rest).map Prod.fst := by
            intro e member
            obtain ⟨line, inLines, rfl⟩ := List.mem_map.mp member
            exact (keys line).mpr (lines line inLines)
          have once : h.1 ∉ ((keyLines h.1).1.map (·, h.2) ++ lineSetsAll rest).map Prod.fst := by
            rw [List.map_append, List.mem_append]
            intro given
            rcases given with member | member
            · obtain ⟨e, inTails, same⟩ := List.mem_map.mp member
              apply fresh
              rw [← keys, ← same]
              exact tails e inTails
            · exact fresh ((keys h.1).mp member)
          rw [if_neg more, lineSets, List.cons_append, latest, if_neg once,
            latest_append_of_covered tails, rest_eq]

/-! ## The request line -/

/-- A text that can stand in a line of a string. -/
def Plain (text : Bytes) : Prop := 0 ∉ text ∧ ¬ crlf <:+: text

instance (text : Bytes) : Decidable (Plain text) := inferInstanceAs (Decidable (_ ∧ _))

theorem Plain.of_infix {text whole : Bytes} (plain : Plain whole) (inside : text <:+: whole) :
    Plain text :=
  ⟨fun zero => plain.1 (inside.subset zero), fun occurs => plain.2 (occurs.trans inside)⟩

theorem Plain.join {c : UInt8} {x y : Bytes} (before : Plain x) (behind : Plain y)
    (other : c ≠ 0 ∧ c ≠ 13 ∧ c ≠ 10) : Plain (x ++ c :: y) := by
  refine ⟨?_, pair_separated other.2.1 other.2.2 before.2 behind.2⟩
  rw [List.mem_append, List.mem_cons]
  intro given
  rcases given with zero | zero | zero
  · exact before.1 zero
  · exact other.1 zero.symm
  · exact behind.1 zero

theorem space_apart : space ≠ 0 ∧ space ≠ 13 ∧ space ≠ 10 := by decide
theorem slash_apart : slash ≠ 0 ∧ slash ≠ 13 ∧ slash ≠ 10 := by decide
theorem colon_apart : colon ≠ 0 ∧ colon ≠ 13 ∧ colon ≠ 10 := by decide

theorem plain_nil : Plain [] := ⟨by simp, by simp [crlf]⟩

/-- The line that is printed, without its end. -/
theorem printRequestLine_eq (f : Fields) : printRequestLine f = (f.pieces [] []).line ++ crlf := by
  simp [printRequestLine, Pieces.line, Pieces.addr, Pieces.rest, Pieces.hostPart, Fields.pieces]

/-- Each field can stand in a line. -/
structure PlainFields (f : Fields) : Prop where
  method : Plain f.method
  protocol : Plain f.protocol
  host : Plain f.host
  port : ∀ port, f.port = some port → Plain port
  path : Plain f.path
  version : Plain f.version

/-- What stands between the fields cannot make a line end. -/
theorem PlainFields.line {f : Fields} (plain : PlainFields f) (form : f.WellFormed) :
    Plain (f.pieces [] []).line := by
  obtain ⟨text, path, -⟩ := form.path
  have plainText : Plain text := plain.path.of_infix ⟨[slash], [], by simp [path]⟩
  have pathVersion : Plain (text ++ space :: f.version) := plainText.join plain.version space_apart
  have hostOn : Plain (f.host ++ portText f.port ++ slash :: (text ++ space :: f.version)) := by
    cases port : f.port with
    | none =>
        rw [portText, List.append_nil]
        exact plain.host.join pathVersion slash_apart
    | some text =>
        have joined :=
          plain.host.join ((plain.port text port).join pathVersion slash_apart) colon_apart
        simpa [portText] using joined
  have uri : Plain ([] ++ slash :: ([] ++ slash :: (f.host ++ portText f.port ++
      slash :: (text ++ space :: f.version)))) :=
    plain_nil.join (plain_nil.join hostOn slash_apart) slash_apart
  have whole := plain.method.join (plain.protocol.join uri colon_apart) space_apart
  simpa [Pieces.line, Pieces.addr, Pieces.rest, Pieces.hostPart, Fields.pieces, path] using whole

/-- The fields are parts of the line that was parsed. -/
theorem Pieces.plainFields {p : Pieces} (plain : Plain p.line) : PlainFields p.fields := by
  have addr : Plain p.addr :=
    plain.of_infix ⟨p.lead ++ p.method ++ space :: p.gap, space :: p.version,
      by simp [Pieces.line]⟩
  have hostPart : Plain p.hostPart :=
    addr.of_infix ⟨p.delims ++ p.scheme ++ p.separator :: p.slashes, p.path,
      by simp [Pieces.addr, Pieces.rest]⟩
  have path : Plain p.path :=
    addr.of_infix ⟨p.delims ++ p.scheme ++ p.separator :: (p.slashes ++ p.hostPart), [],
      by simp [Pieces.addr, Pieces.rest]⟩
  have behind : Plain p.behindHost :=
    hostPart.of_infix ⟨p.colons ++ p.host, [], by simp [Pieces.hostPart]⟩
  refine ⟨plain.of_infix ⟨p.lead, _, rfl⟩, addr.of_infix ⟨p.delims, _, rfl⟩,
    hostPart.of_infix ⟨p.colons, p.behindHost, rfl⟩, ?_, ?_, ?_⟩
  · intro port stored
    rcases whole : p.behindHost with _ | ⟨d, _ | ⟨c, text⟩⟩
    · simp [Pieces.fields, storedPort, whole] at stored
    · simp [Pieces.fields, storedPort, whole] at stored
    · simp only [Pieces.fields, storedPort, whole, Option.some.injEq] at stored
      rw [whole] at behind
      exact behind.of_infix ⟨[d], [], by simp [stored]⟩
  · -- the path with its slash
    show Plain (storedPath p.path)
    cases whole : p.path with
    | nil => exact plain_nil.join plain_nil slash_apart
    | cons d text =>
        rw [whole] at path
        have tail : Plain text := path.of_infix ⟨[d], [], by simp⟩
        exact plain_nil.join tail slash_apart
  · exact plain.of_infix ⟨p.lead ++ p.method ++ space :: (p.gap ++ p.addr ++ [space]), [],
      by simp [Pieces.line, Pieces.fields]⟩

/-! ## Whole requests -/

/-- What an accepted request consists of. -/
theorem parsedRequestParse_accepted {buf : Bytes} {pr : ParsedRequest}
    (parse : parsedRequestParse .other parsedRequestCreate buf = some (0, pr)) :
    ∃ (p : Pieces) (sets : List Header), p.WellCut ∧ Plain p.line ∧ Linked sets ∧
      (∀ h ∈ sets, CleanHeader h) ∧
      pr = sets.foldl setHeader (parsedRequestCreate.withLine p.requestLine) := by
  have fresh : parsedRequestCreate.buf.isSome = false := rfl
  simp only [parsedRequestParse, fresh, Bool.false_eq_true, if_false] at parse
  split at parse
  · cases parse
  cases read : cstring (buf ++ [0]) with
  | none => simp [read] at parse
  | some text =>
      obtain ⟨cleanText, post, whole⟩ := cstring_eq_some read
      rw [read, Option.bind_eq_bind, Option.bind_some] at parse
      split at parse
      · cases parse
      cases found : strstr crlf text with
      | none => simp [found] at parse
      | some i =>
          obtain ⟨line, rest, rfl, rfl, oneLine⟩ := strstr_eq_some found
          have first : (buf ++ [0]).take line.length = line := by
            rw [whole]
            simp
          have cleanLine : 0 ∉ line := fun zero => cleanText (by simp [zero])
          rw [found, Option.bind_eq_bind, Option.bind_some, first] at parse
          rcases parseRequestLine_cases .other cleanLine with last | rejected | ⟨p, cut, rfl, -⟩
          · rw [parseRequestLine_addressLast cleanLine last] at parse
            cases parse
          · rw [rejected] at parse
            cases parse
          · rw [parseRequestLine_pieces cleanLine cut (portBad_other _)] at parse
            obtain ⟨sets, rfl, linked, clean, -⟩ := parseHeaders_sets parse
            exact ⟨p, sets, cut, ⟨cleanLine, oneLine (by simp [crlf])⟩, linked, clean, rfl⟩

theorem printHeaders_eq (slots : List (Option Header)) :
    printHeaders slots = ((slots.filterMap id).map printHeader).flatten ++ crlf := by
  rw [printHeaders]
  congr 1
  induction slots with
  | nil => rfl
  | cons slot rest ih =>
      cases slot with
      | none => simpa using ih
      | some h => simpa using ih

theorem CleanHeader.printed {headers : List Header} (clean : ∀ h ∈ headers, CleanHeader h) :
    0 ∉ (headers.map printHeader).flatten := by
  intro zero
  obtain ⟨line, inLines, inLine⟩ := List.mem_flatten.mp zero
  obtain ⟨h, member, rfl⟩ := List.mem_map.mp inLines
  have key := (clean h member).key.1
  have value := (clean h member).value.1
  simp [printHeader, key, value, colon, space, crlf] at inLine

/-- The printed text ends with a blank line. -/
theorem printed_blankLine (line : Bytes) (headers : List Header) :
    crlf ++ crlf <:+: line ++ crlf ++ ((headers.map printHeader).flatten ++ crlf) := by
  have blank := blankLine_joinLines line [] (headers.map fun h => h.1 ++ [colon, space] ++ h.2)
  rw [joinLines, List.map_map, List.append_nil] at blank
  exact blank

/-- Printing a parsed request and parsing the text gives the same request. -/
theorem parse_unparse_agree {buf text : Bytes} {pr : ParsedRequest}
    (parse : parsedRequestParse .other parsedRequestCreate buf = some (0, pr))
    (unparse : parsedRequestUnparse pr (parsedRequestTotalLen pr) = (0, text))
    (short : text.length ≤ 65535) :
    ∃ pr', parsedRequestParse .other parsedRequestCreate text = some (0, pr') ∧
      pr'.fields = pr.fields ∧ pr.fields.isSome = true ∧ pr'.liveHeaders = pr.liveHeaders := by
  obtain ⟨p, sets, cut, plain, linked, clean, rfl⟩ := parsedRequestParse_accepted parse
  have fields : (sets.foldl setHeader (parsedRequestCreate.withLine p.requestLine)).fields =
      some p.fields := by
    rw [foldl_setHeader_fields, ParsedRequest.fields_withLine, Pieces.requestLine_fields plain.1]
  have live : (sets.foldl setHeader (parsedRequestCreate.withLine p.requestLine)).liveHeaders =
      latest sets := foldl_setHeader_live rfl sets
  have form := cut.fields_wellFormed
  have printed := (Pieces.plainFields plain).line form
  have again : (p.fields.pieces [] []).WellCut := form.pieces_wellCut (by simp) (by simp)
  have cleanLive : ∀ h ∈ latest sets, CleanHeader h :=
    fun h member => clean h (mem_of_mem_latest member)
  have printedText := parsedRequestUnparse_text fields unparse
  rw [printRequestLine_eq, printHeaders_eq, ← ParsedRequest.liveHeaders, live] at printedText
  subst printedText
  have read : cstring (((latest sets).map printHeader).flatten ++ crlf ++ [0]) =
      some (((latest sets).map printHeader).flatten ++ crlf) := by
    apply cstring_append
    rw [List.mem_append, not_or]
    exact ⟨CleanHeader.printed cleanLive, zero_notMem_crlf⟩
  refine ⟨(lineSetsAll (latest sets)).foldl setHeader
    (parsedRequestCreate.withLine (p.fields.pieces [] []).requestLine), ?_, ?_, ?_, ?_⟩
  · rw [parsedRequestParse_split rfl printed.1 printed.2 read (printed_blankLine _ _) short,
      parseRequestLine_pieces printed.1 again (portBad_other _)]
    apply parseHeaders_lines cleanLive
    simp only [List.length_append, List.length_singleton]
    omega
  · rw [fields, foldl_setHeader_fields, ParsedRequest.fields_withLine,
      Pieces.requestLine_fields printed.1, form.pieces_fields]
  · rw [fields]
    rfl
  · rw [live, foldl_setHeader_live rfl, linked.covered.latest_lineSetsAll]

/-- `GET http://h/ HTTP/1.0` with a key that spans two lines, `A`, line end, `B: 1`. -/
def spanningRequest : Bytes :=
  rootRequest ++ crlf ++ [65, 13, 10, 66, 58, 32, 49] ++ crlf ++ crlf

theorem parse_unparse_agree_spanningRequest :
    ∃ pr text, parsedRequestParse .other parsedRequestCreate spanningRequest = some (0, pr) ∧
      parsedRequestUnparse pr (parsedRequestTotalLen pr) = (0, text) ∧
      ∃ pr', parsedRequestParse .other parsedRequestCreate text = some (0, pr') ∧
        pr'.fields = pr.fields ∧ pr.fields.isSome = true ∧ pr'.liveHeaders = pr.liveHeaders := by
  have parse : ∃ pr, parsedRequestParse .other parsedRequestCreate spanningRequest = some (0, pr) ∧
      (parsedRequestUnparse pr (parsedRequestTotalLen pr)).1 = 0 ∧
      (parsedRequestUnparse pr (parsedRequestTotalLen pr)).2.length ≤ 65535 :=
    ⟨_, rfl, by decide, by decide⟩
  obtain ⟨pr, accepted, done, short⟩ := parse
  refine ⟨pr, (parsedRequestUnparse pr (parsedRequestTotalLen pr)).2, accepted, ?_, ?_⟩
  · rw [← done]
  · exact parse_unparse_agree accepted (by rw [← done]) short

end CompNet.Proxy
