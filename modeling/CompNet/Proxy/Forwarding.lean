import CompNet.Proxy.ParseBounds
import CompNet.Proxy.PrintedRequests
import CompNet.Proxy.Relay

/-!
# What is forwarded of a request

`parse_request` writes its own request over the client's: a request line, the host and that the
connection is to be closed.  A text is made of header lines in one way only (`Message.unique`), so
that no other header of the client is among them.
-/

namespace CompNet.Proxy

open CompNet.Lib

/-! ## Names -/

/-- `"Host"`. -/
def hostName : Bytes := [72, 111, 115, 116]

/-- `"Connection"`. -/
def connectionName : Bytes := [67, 111, 110, 110, 101, 99, 116, 105, 111, 110]

/-- `"close"`. -/
def close : Bytes := [99, 108, 111, 115, 101]

def toLower (c : UInt8) : UInt8 := if 65 ≤ c && c ≤ 90 then c + 32 else c

/-- Header names are the same in upper and lower case. -/
def sameName (a b : Bytes) : Bool := a.map toLower == b.map toLower

/-- The names of the headers that the proxy sends itself. -/
def ownName (name : Bytes) : Bool := sameName name hostName || sameName name connectionName

/-- No line end stands in such a name. -/
theorem crlf_of_ownName {name : Bytes} (own : ownName name = true) : ¬ crlf <:+: name := by
  intro inside
  have carriageReturn : (13 : UInt8) ∈ name := inside.subset (by simp [crlf])
  have lowered : (13 : UInt8) ∈ name.map toLower := List.mem_map.mpr ⟨13, carriageReturn, rfl⟩
  simp only [ownName, Bool.or_eq_true, sameName, beq_iff_eq] at own
  rcases own with same | same
  · rw [same] at lowered
    exact absurd lowered (by decide)
  · rw [same] at lowered
    exact absurd lowered (by decide)

/-! ## Messages -/

/-- A text that is a first line, lines with these headers, and the blank line. -/
structure Message (text start : Bytes) (headers : List Header) : Prop where
  whole : text = start ++ crlf ++ (joinLines (headers.map headerText) ++ crlf)
  plain : ∀ h ∈ headers, PlainHeader h

/-- A text has its headers in one way only. -/
theorem Message.unique {text start : Bytes} {headers headers' : List Header}
    (message : Message text start headers) (message' : Message text start headers') :
    headers = headers' := by
  have same : joinLines (headers.map headerText) ++ crlf ++ [] =
      joinLines (headers'.map headerText) ++ crlf ++ [] := by
    rw [List.append_nil, List.append_nil]
    exact List.append_cancel_left (message.whole.symm.trans message'.whole)
  have texts := (joinLines_unique (PlainHeader.headerLines message.plain)
    (PlainHeader.headerLines message'.plain) same).1
  rw [← readHeaders_printed message.plain, texts, readHeaders_printed message'.plain]

/-- The request line that goes to the server, `GET path HTTP/1.0`. -/
def serverLine (path : Bytes) : Bytes :=
  get ++ [space] ++ path ++ [space, 72, 84, 84, 80, 47, 49, 46, 48]

/-- The headers of the request that goes to the server. -/
def ownHeaders (host : Bytes) : List Header := [(hostName, host), (connectionName, close)]

theorem serverRequest_message {host : Bytes} (path : Bytes) (plain : Plain host) :
    Message (serverRequest path host) (serverLine path) (ownHeaders host) := by
  refine ⟨?_, ?_⟩
  · simp [serverRequest, serverLine, ownHeaders, joinLines, headerText, hostName, connectionName,
      close, colon, space]
  · intro h member
    simp only [ownHeaders, List.mem_cons, List.not_mem_nil, or_false] at member
    rcases member with rfl | rfl
    · have name : Plain hostName ∧ colon ∉ hostName := by decide
      exact ⟨name, plain⟩
    · exact ⟨by decide, by decide⟩

/-! ## Accepted requests -/

theorem RequestForm.unique {buf line line' body body' : Bytes} {lines lines' : List Bytes}
    (form : RequestForm buf line lines body) (form' : RequestForm buf line' lines' body') :
    line = line' ∧ lines = lines' := by
  obtain ⟨sameLine, rest⟩ := value_unique form.plain.2 form'.plain.2
    (form.whole.symm.trans form'.whole)
  exact ⟨sameLine, (joinLines_unique form.each form'.each rest).1⟩

/-- An accepted request, whatever `errno` was: its fields come from its first line, and a key from
each of its header lines. -/
theorem parsedRequestParse_accepted_form {errno : Errno} {buf : Bytes} {ret : Int}
    {pr : ParsedRequest} (accepted : ¬ ret < 0)
    (parse : parsedRequestParse errno parsedRequestCreate buf = some (ret, pr)) :
    ∃ line lines body, RequestForm buf line lines body ∧
      ∃ (p : Pieces) (sets : List Header), p.WellCut ∧ p.line = line ∧
        List.Forall₂ KeyAt lines sets ∧
        pr = sets.foldl setHeader (parsedRequestCreate.withLine p.requestLine) := by
  rcases parsedRequestParse_cases errno parsedRequestCreate_unused buf with
    ⟨pr', refused, -⟩ | ⟨line, lines, body, form, last | good⟩
  · rw [refused] at parse
    cases parse
    exact absurd (by decide) accepted
  · rw [form.parse_addressLast rfl last] at parse
    cases parse
  · obtain ⟨p, fuel, cut, split, enough, run⟩ :=
      form.parse_goodLine parsedRequestCreate_unused good
    rw [run] at parse
    rcases parseHeaders_outcome (parsedRequestCreate.withLine p.requestLine) form.each enough with
      ⟨sets, keys, set⟩ | ⟨-, sets, refused⟩ | ⟨-, overrun⟩
    · rw [set] at parse
      cases parse
      exact ⟨line, lines, body, form, p, sets, cut, split, keys, rfl⟩
    · rw [refused] at parse
      cases parse
      exact absurd (by decide) accepted
    · rw [overrun] at parse
      cases parse

/-! ## The client's headers -/

/-- What is to be sent for a request: the path and the host, one `Connection` header, which says
`close`, and every other header of the client. -/
def Forwards (text path host : Bytes) (client : List Header) : Prop :=
  ∃ headers, Message text (serverLine path) headers ∧ (hostName, host) ∈ headers ∧
    headers.filter (fun h => sameName h.1 connectionName) = [(connectionName, close)] ∧
    ∀ h ∈ client, ownName h.1 = false → h ∈ headers

theorem forwards_serverRequest {path host : Bytes} {client : List Header} (plain : Plain host) :
    Forwards (serverRequest path host) path host client ↔ ∀ h ∈ client, ownName h.1 = true := by
  have message := serverRequest_message path plain
  constructor
  · intro given h member
    obtain ⟨headers, message', -, -, sent⟩ := given
    cases own : ownName h.1 with
    | true => rfl
    | false =>
        have inside : h ∈ ownHeaders host := by
          rw [message.unique message']
          exact sent h member own
        simp only [ownHeaders, List.mem_cons, List.not_mem_nil, or_false] at inside
        rcases inside with rfl | rfl
        · cases own
        · cases own
  · intro own
    refine ⟨ownHeaders host, message, List.mem_cons_self, rfl, fun h member other => ?_⟩
    rw [own h member] at other
    cases other

theorem KeyAt.ownName_iff {l : Bytes} {h : Header} (key : KeyAt l h) :
    ownName h.1 = true ↔ colon ∈ l ∧ ownName (lineKey l) = true := by
  unfold KeyAt at key
  split at key
  · next here =>
      rw [key]
      exact ⟨fun own => ⟨here, own⟩, fun own => own.2⟩
  · next bare =>
      exact ⟨fun own => absurd key (crlf_of_ownName own), fun own => absurd own.1 bare⟩

theorem ownNames_iff {lines : List Bytes} {sets : List Header}
    (keys : List.Forall₂ KeyAt lines sets) :
    (∀ h ∈ latest sets, ownName h.1 = true) ↔
      ∀ l ∈ lines, colon ∈ l ∧ ownName (lineKey l) = true := by
  have names : (∀ h ∈ latest sets, ownName h.1 = true) ↔ ∀ h ∈ sets, ownName h.1 = true := by
    rw [← List.forall_mem_map (f := Prod.fst) (P := fun k => ownName k = true),
      ← List.forall_mem_map (f := Prod.fst) (P := fun k => ownName k = true)]
    exact forall_congr' fun k => imp_congr_left (mem_keys_latest k)
  rw [names]
  clear names
  induction keys with
  | nil => simp
  | cons first _ ih =>
      rw [List.forall_mem_cons, List.forall_mem_cons]
      exact and_congr first.ownName_iff ih

/-- A request whose header lines all have a colon, and in front of it one of the two names. -/
def OnlyOwnHeaders (request : Bytes) : Prop :=
  ∃ line lines body, RequestForm request line lines body ∧
    ∀ l ∈ lines, colon ∈ l ∧ ownName (lineKey l) = true

section

variable {errno : Errno} {request : Bytes} {pr : ParsedRequest} {f : Fields}

theorem parseRequest_ready
    (parse : parsedRequestParse errno parsedRequestCreate request = some (0, pr))
    (fields : pr.fields = some f) (isGet : f.method = get)
    (fits : (serverRequest f.path f.host).length < recvBufferSize) :
    parseRequest errno request =
      some (.ready (serverRequest f.path f.host) f.host (f.port.getD defaultPort)) := by
  simp [parseRequest, parse, fields, isGet, Nat.not_le_of_lt fits]

/-- A request is forwarded with all that the client said exactly if it said nothing but the
host and the connection. -/
theorem forwarded_iff (parse : parsedRequestParse errno parsedRequestCreate request = some (0, pr))
    (fields : pr.fields = some f) (isGet : f.method = get)
    (fits : (serverRequest f.path f.host).length < recvBufferSize) :
    (∃ text host port, parseRequest errno request = some (.ready text host port) ∧
      Forwards text f.path f.host pr.liveHeaders) ↔ OnlyOwnHeaders request := by
  obtain ⟨line, lines, body, form, p, sets, -, split, keys, whole⟩ :=
    parsedRequestParse_accepted_form (by decide) parse
  have plainLine : Plain p.line := split ▸ form.plain
  have plain : Plain f.host := by
    rw [whole, foldl_setHeader_fields, ParsedRequest.fields_withLine,
      Pieces.requestLine_fields plainLine.1, Option.some.injEq] at fields
    rw [← fields]
    exact (Pieces.plainFields plainLine).host
  have live : pr.liveHeaders = latest sets := by
    rw [whole]
    exact foldl_setHeader_live rfl sets
  have own : OnlyOwnHeaders request ↔ ∀ l ∈ lines, colon ∈ l ∧ ownName (lineKey l) = true := by
    refine ⟨fun given => ?_, fun own => ⟨line, lines, body, form, own⟩⟩
    obtain ⟨line', lines', body', form', own⟩ := given
    rw [(form.unique form').2]
    exact own
  rw [own, ← ownNames_iff keys, ← live, ← forwards_serverRequest plain,
    parseRequest_ready parse fields isGet fits]
  constructor
  · intro given
    obtain ⟨text, host, port, ready, forwards⟩ := given
    cases ready
    exact forwards
  · intro forwards
    exact ⟨_, _, _, rfl, forwards⟩

end

/-- A client that names the host. -/
def hostLine : Bytes := [72, 111, 115, 116, 58, 32, 104]

theorem forwarded_iff_hostLine :
    ∃ pr f text host port,
      parsedRequestParse .other parsedRequestCreate
          (rootRequest ++ crlf ++ (joinLines [hostLine] ++ crlf ++ [])) = some (0, pr) ∧
        pr.fields = some f ∧
        parseRequest .other (rootRequest ++ crlf ++ (joinLines [hostLine] ++ crlf ++ [])) =
          some (.ready text host port) ∧
        Forwards text f.path f.host pr.liveHeaders := by
  have parse : ∃ pr f, parsedRequestParse .other parsedRequestCreate
        (rootRequest ++ crlf ++ (joinLines [hostLine] ++ crlf ++ [])) = some (0, pr) ∧
      pr.fields = some f ∧ f.method = get ∧
      (serverRequest f.path f.host).length < recvBufferSize :=
    ⟨_, _, rfl, rfl, rfl, by decide⟩
  obtain ⟨pr, f, parse, fields, isGet, fits⟩ := parse
  have line : HeaderLine hostLine := ⟨by decide, by decide⟩
  have form : RequestForm (rootRequest ++ crlf ++ (joinLines [hostLine] ++ crlf ++ [])) rootRequest
      [hostLine] [] :=
    ⟨rfl, by decide, rootRequest_plain, fun l member => List.mem_singleton.mp member ▸ line⟩
  have own : ∀ l ∈ [hostLine], colon ∈ l ∧ ownName (lineKey l) = true := by decide
  obtain ⟨text, host, port, ready, forwards⟩ :=
    (forwarded_iff parse fields isGet fits).mpr ⟨_, _, _, form, own⟩
  exact ⟨pr, f, text, host, port, parse, fields, ready, forwards⟩

/-- A header `A: 1` does not come through. -/
theorem header_not_forwarded :
    ∃ pr f, parsedRequestParse .other parsedRequestCreate
        (rootRequest ++ crlf ++ [65, 58, 32, 49] ++ crlf ++ crlf) = some (0, pr) ∧
      pr.fields = some f ∧ f.method = get ∧
      (serverRequest f.path f.host).length < recvBufferSize ∧
      ¬ ∃ text host port, parseRequest .other
          (rootRequest ++ crlf ++ [65, 58, 32, 49] ++ crlf ++ crlf) =
            some (.ready text host port) ∧
        Forwards text f.path f.host pr.liveHeaders := by
  refine ⟨_, _, rfl, rfl, rfl, by decide, ?_⟩
  intro given
  obtain ⟨text, host, port, ready, forwards⟩ := given
  cases ready
  have plain : Plain [104] := by decide
  cases (forwards_serverRequest plain).mp forwards ([65], [49]) List.mem_cons_self

end CompNet.Proxy
