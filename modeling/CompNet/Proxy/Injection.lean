import CompNet.Proxy.Forwarding

/-!
# What a client can put into the proxy's request

The path and the host of an accepted request are copied into the request for the
server.  The cuts that leave them take away every space, and no CRLF can stand in
them, so that a server which ends lines with CRLF only reads the request line the
proxy meant.  A bare line feed goes through all of the cuts, and a server that takes
it for a line end reads a request line and headers of the client's own choice.
-/

namespace CompNet.Proxy

open CompNet.Lib

/-! ## Reading lines -/

/-- The lines of a text, each ended by a line feed. -/
def lfLines : Bytes → List Bytes
  | [] => []
  | c :: rest =>
      if c = 10 then [] :: lfLines rest
      else
        match lfLines rest with
        | [] => [[c]]
        | line :: lines => (c :: line) :: lines

/-- A line without a carriage return at its end. -/
def withoutCr (line : Bytes) : Bytes := if line.getLast? = some 13 then line.dropLast else line

/-- The lines of a text for a reader that takes CRLF and a bare line feed. -/
def lenientLines (text : Bytes) : List Bytes := (lfLines text).map withoutCr

/-- The first line of a text for a reader that takes CRLF only. -/
def strictLine (text : Bytes) : Bytes := text.take ((strstr crlf text).getD text.length)

theorem lfLines_cons {line rest : Bytes} (oneLine : 10 ∉ line) :
    lfLines (line ++ 10 :: rest) = line :: lfLines rest := by
  induction line with
  | nil => exact if_pos rfl
  | cons c line ih =>
      rw [List.mem_cons, not_or] at oneLine
      rw [List.cons_append, lfLines, if_neg (Ne.symm oneLine.1), ih oneLine.2]

theorem lenientLines_cons {line rest : Bytes} (oneLine : 10 ∉ line) :
    lenientLines (line ++ crlf ++ rest) = line :: lenientLines rest := by
  have split : line ++ crlf ++ rest = (line ++ [13]) ++ 10 :: rest := by simp [crlf]
  have oneLine' : 10 ∉ line ++ [13] := by simp [oneLine]
  rw [split, lenientLines, lfLines_cons oneLine', List.map_cons, withoutCr,
    List.getLast?_concat, if_pos rfl, List.dropLast_concat, lenientLines]

theorem strictLine_eq {line : Bytes} (rest : Bytes) (oneLine : ¬ crlf <:+: line) :
    strictLine (line ++ crlf ++ rest) = line := by
  rw [strictLine, strstr_crlf oneLine, Option.getD_some, List.append_assoc, List.take_left]

/-! ## The proxy's request -/

/-- A byte that ends a line or a word. -/
def breaks (c : UInt8) : Bool := c == 13 || c == 10 || c == space

/-- The request has the path and the host that it is given in its lines and no other
lines. -/
structure Uninjected (text path host : Bytes) : Prop where
  unbrokenPath : ∀ c ∈ path, breaks c = false
  unbrokenHost : ∀ c ∈ host, breaks c = false
  strict : strictLine text = serverLine path
  lenient : lenientLines text =
    [serverLine path, headerText (hostName, host), headerText (connectionName, close), []]

theorem breaks_eq_false {c : UInt8} : breaks c = false ↔ c ≠ 13 ∧ c ≠ 10 ∧ c ≠ space := by
  simp only [breaks, Bool.or_eq_false_iff, beq_eq_false_iff_ne, and_assoc]

theorem serverRequest_lines (path host : Bytes) :
    serverRequest path host = serverLine path ++ crlf ++ (headerText (hostName, host) ++ crlf ++
      (headerText (connectionName, close) ++ crlf ++ ([] ++ crlf ++ []))) := by
  simp [serverRequest, serverLine, headerText, hostName, connectionName, close, colon, space]

theorem serverRequest_path {path path' host : Bytes}
    (same : serverRequest path host = serverRequest path' host) : path = path' := by
  simpa [serverRequest] using same

theorem crlf_notInfix {text : Bytes} (fresh : 10 ∉ text) : ¬ crlf <:+: text :=
  fun inside => fresh (inside.subset (by simp [crlf]))

theorem uninjected {path host : Bytes} (pathFine : ∀ c ∈ path, breaks c = false)
    (hostFine : ∀ c ∈ host, breaks c = false) :
    Uninjected (serverRequest path host) path host := by
  have noPathLf : 10 ∉ path := fun feed => absurd (pathFine 10 feed) (by decide)
  have noHostLf : 10 ∉ host := fun feed => absurd (hostFine 10 feed) (by decide)
  have line : 10 ∉ serverLine path := by simp [serverLine, get, space, noPathLf]
  have hostLine : 10 ∉ headerText (hostName, host) := by
    simp [headerText, hostName, colon, space, noHostLf]
  have closeLine : 10 ∉ headerText (connectionName, close) := by decide
  refine ⟨pathFine, hostFine, ?_, ?_⟩
  · rw [serverRequest_lines]
    exact strictLine_eq _ (crlf_notInfix line)
  · rw [serverRequest_lines, lenientLines_cons line, lenientLines_cons hostLine,
      lenientLines_cons closeLine, lenientLines_cons List.not_mem_nil]
    rfl

/-! ## Accepted requests -/

/-- The pieces of the request line that become the path and the host are in one line,
even for a reader that takes a bare carriage return or line feed for a line end. -/
def UnbrokenAddress (request : Bytes) : Prop :=
  ∃ (p : Pieces) (lines : List Bytes) (body : Bytes), RequestForm request p.line lines body ∧
    p.WellCut ∧ ∀ c ∈ p.host ++ p.path, c ≠ 13 ∧ c ≠ 10

/-- The path is what stands in the line, if there is something. -/
theorem Pieces.WellCut.storedPath_eq {p : Pieces} (cut : p.WellCut) :
    storedPath p.path = p.path ∨ p.path = [] ∧ storedPath p.path = [slash] := by
  cases path : p.path with
  | nil => exact Or.inr ⟨rfl, rfl⟩
  | cons d text =>
      have first := isSlash_eq_true.mp (cut.hostPart.stops d text path)
      rw [first]
      exact Or.inl rfl

section

variable {errno : Errno} {request text host port : Bytes}
  (ready : parseRequest errno request = some (.ready text host port))
include ready

/-- The request for the server is made of two pieces of the client's first line. -/
theorem parseRequest_pieces :
    ∃ (p : Pieces) (lines : List Bytes) (body : Bytes), RequestForm request p.line lines body ∧
      p.WellCut ∧ host = p.host ∧ text = serverRequest (storedPath p.path) p.host := by
  rw [parseRequest] at ready
  obtain ⟨⟨ret, pr⟩, parse, ready⟩ := Option.bind_eq_some_iff.mp ready
  dsimp only at ready
  split at ready
  · cases ready
  · next accepted =>
      obtain ⟨f, fields, ready⟩ := Option.bind_eq_some_iff.mp ready
      obtain ⟨line, lines, body, form, p, sets, cut, rfl, -, whole⟩ :=
        parsedRequestParse_accepted_form accepted parse
      rw [whole, foldl_setHeader_fields, ParsedRequest.fields_withLine,
        Pieces.requestLine_fields form.plain.1, Option.some.injEq] at fields
      split at ready
      · cases ready
      · split at ready
        · cases ready
        · cases ready
          rw [← fields]
          exact ⟨p, lines, body, form, cut, rfl, rfl⟩

/-- A reader that takes CRLF only reads the request line that the proxy meant. -/
theorem parseRequest_strict :
    ∃ path, text = serverRequest path host ∧ strictLine text = serverLine path := by
  obtain ⟨p, lines, body, form, cut, rfl, rfl⟩ := parseRequest_pieces ready
  have plain := Pieces.plainFields form.plain
  have line : Plain (serverLine (storedPath p.path)) := by
    have version : Plain [72, 84, 84, 80, 47, 49, 46, 48] := by decide
    have method : Plain get := by decide
    have whole := method.join (plain.path.join version space_apart) space_apart
    rwa [serverLine, List.append_assoc, List.append_assoc]
  refine ⟨_, rfl, ?_⟩
  rw [serverRequest_lines]
  exact strictLine_eq _ line.2

/-- Nothing of the client's stands in the request but its path and its host if and only
if the request line has no bare carriage return and no bare line feed in them. -/
theorem parseRequest_uninjected_iff :
    (∃ path, text = serverRequest path host ∧ Uninjected text path host) ↔
      UnbrokenAddress request := by
  obtain ⟨p, lines, body, form, cut, rfl, rfl⟩ := parseRequest_pieces ready
  constructor
  · intro given
    obtain ⟨path, same, fine⟩ := given
    have path_eq := serverRequest_path same
    refine ⟨p, lines, body, form, cut, fun c member => ?_⟩
    rcases List.mem_append.mp member with inHost | inPath
    · have unbroken := breaks_eq_false.mp (fine.unbrokenHost c inHost)
      exact ⟨unbroken.1, unbroken.2.1⟩
    · have inStored : c ∈ path := by
        rcases cut.storedPath_eq with here | ⟨none, -⟩
        · rwa [← path_eq, here]
        · rw [none] at inPath
          cases inPath
      have unbroken := breaks_eq_false.mp (fine.unbrokenPath c inStored)
      exact ⟨unbroken.1, unbroken.2.1⟩
  · intro given
    obtain ⟨p', lines', body', form', cut', fine⟩ := given
    obtain rfl := cut.unique cut' (form.unique form').1
    have noSpace : ∀ c ∈ p.addr, c ≠ space := fun c member =>
      isSpace_eq_false.mp (cut.address.chars c member)
    refine ⟨_, rfl, uninjected (fun c member => ?_) fun c member => ?_⟩
    · rcases cut.storedPath_eq with here | ⟨-, root⟩
      · rw [here] at member
        obtain ⟨noCr, noLf⟩ := fine c (List.mem_append_right _ member)
        have inAddr : c ∈ p.addr := by simp [Pieces.addr, Pieces.rest, member]
        exact breaks_eq_false.mpr ⟨noCr, noLf, noSpace c inAddr⟩
      · rw [root, List.mem_singleton] at member
        rw [member]
        decide
    · obtain ⟨noCr, noLf⟩ := fine c (List.mem_append_left _ member)
      have inAddr : c ∈ p.addr := by simp [Pieces.addr, Pieces.rest, Pieces.hostPart, member]
      exact breaks_eq_false.mpr ⟨noCr, noLf, noSpace c inAddr⟩

end

theorem parseRequest_uninjected_iff_root :
    parseRequest .other (rootRequest ++ crlf ++ crlf) =
        some (.ready (serverRequest [slash] [104]) [104] defaultPort) ∧
      ((∃ path, serverRequest [slash] [104] = serverRequest path [104] ∧
          Uninjected (serverRequest [slash] [104]) path [104]) ↔
        UnbrokenAddress (rootRequest ++ crlf ++ crlf)) := by
  have ready : parseRequest .other (rootRequest ++ crlf ++ crlf) =
      some (.ready (serverRequest [slash] [104]) [104] defaultPort) := by decide
  exact ⟨ready, parseRequest_uninjected_iff ready⟩

/-- `GET http://h/` `X: HTTP/1.0`, with a bare line feed behind the slash. -/
def injectingRequest : Bytes :=
  rootRequest.take 13 ++ [10, 88, 58] ++ rootRequest.drop 13 ++ crlf ++ crlf

/-- The request for the server has a header line `X: HTTP/1.0`. -/
theorem injectingRequest_adds_line :
    parseRequest .other injectingRequest =
        some (.ready (serverRequest [slash, 10, 88, 58] [104]) [104] defaultPort) ∧
      lenientLines (serverRequest [slash, 10, 88, 58] [104]) =
        [get ++ [space, slash], [88, 58, space, 72, 84, 84, 80, 47, 49, 46, 48],
          headerText (hostName, [104]), headerText (connectionName, close), []] ∧
      ¬ ∃ path, serverRequest [slash, 10, 88, 58] [104] = serverRequest path [104] ∧
        Uninjected (serverRequest [slash, 10, 88, 58] [104]) path [104] := by
  refine ⟨by decide, by decide, fun given => ?_⟩
  obtain ⟨path, same, fine⟩ := given
  have path_eq := serverRequest_path same
  have feed := fine.unbrokenPath 10 (by simp [← path_eq])
  exact absurd feed (by decide)

end CompNet.Proxy
