import NodeWe.Separators
import NodeWe.Utf8
import NodeWe.ControlPlane.Intake
import NodeWe.ControlPlane.Route

/-!
# From a request to its parts

The second part of `handle`. It has read the header and as many bytes of the body as the header
announces, and then takes the whole text apart once more: the first line for the method and the
path, what stands between the first two blank lines for the body, and the first line anywhere that
reads like an `Authorization` field for the bearer token. So a body with a blank line is cut, and a
line of the body can present a token (`framing_iff`).
-/

namespace NodeWe.ControlPlane

open Text Utf8 Wire

/-! ## The parts -/

/-- The bearer token in a line. -/
def bearerOfLine (line : List Char) : Option String :=
  match splitOnce ':' line with
  | none => none
  | some (name, value) =>
    if eqIgnoreAsciiCase (trimChars name) "authorization".toList then
      (stripPrefix (trim (String.ofList value)) "Bearer ").map trim
    else none

/-- The token that `handle` finds in a text, empty where there is none. -/
def presentedIn (text : String) : String := ((lines text.toList).findSome? bearerOfLine).getD ""

/-- A blank line with the end of the line before it. -/
def blankLine : List Char := "\r\n\r\n".toList

/-- What `handle` makes of a request. -/
structure Received where
  header : String
  method : String
  path : String
  body : String
  presented : String
  deriving DecidableEq

/-- The header of a request, up to its first blank line. -/
def requestHeader (request : List UInt8) : String :=
  ((findHeaderEnd request).bind fun i => String.fromUTF8? ⟨(request.take i).toArray⟩).getD ""

/-- The parts of a request that has been read. -/
def received (request : List UInt8) : Received :=
  let text := fromUtf8Lossy request
  let parts := splitWhitespace ((lines text.toList).head?.getD [])
  { header := requestHeader request
    method := String.ofList (parts[0]?.getD [])
    path := String.ofList (parts[1]?.getD [])
    body := String.ofList ((secondOfSplit blankLine text.toList).getD [])
    presented := presentedIn text }

/-- What a connection hands out as the parts of a request, or the response that refuses it. -/
def receivedFrom (pieces : List (List UInt8)) : Except Response Received :=
  (readRequest pieces).map received

/-! ## The rest of `handle` -/

/-- `has_header`. -/
def hasHeader (header name expected : String) : Bool :=
  (lines header.toList).any fun line =>
    (splitOnce ':' line).any fun (key, value) =>
      eqIgnoreAsciiCase (trimChars key) name.toList &&
        eqIgnoreAsciiCase (trimChars value) expected.toList

/-- `has_header_token`. -/
def hasHeaderToken (header name expected : String) : Bool :=
  (lines header.toList).any fun line =>
    (splitOnce ':' line).any fun (key, value) =>
      eqIgnoreAsciiCase (trimChars key) name.toList &&
        (value.splitOn ',').any fun token => eqIgnoreAsciiCase (trimChars token) expected.toList

/-- `websocket_path`. -/
def websocketPath (path : String) : Bool :=
  ((splitOnce '?' path.toList).map Prod.fst).getD path.toList == "/v1/agent/ws".toList

/-- What becomes of a connection: a response, or a channel for an agent. -/
inductive Handled
  | responded (response : Response) (store : Store)
  | upgraded (header path presented : String)

/-- The request asks for a channel. -/
def Received.asksUpgrade (r : Received) : Bool :=
  r.method == "GET" && websocketPath r.path && hasHeader r.header "upgrade" "websocket" &&
    hasHeaderToken r.header "connection" "upgrade"

/-- `handle`. -/
def handle [Serde] [Ed25519] (st : State) (env : Env) (store : Store)
    (pieces : List (List UInt8)) : Handled :=
  match receivedFrom pieces with
  | .error refusal => .responded refusal store
  | .ok r =>
    let auth := authenticateRequest st env store r.path r.body r.presented
    if r.asksUpgrade then
      -- The channel is for the credential of a node.
      if !auth.node || auth.admin then .responded (failure .unauthorized "unauthenticated") store
      else .upgraded r.header r.path r.presented
    else
      let (response, store) :=
        routeWithActor st env r.method r.path r.body auth.authorized auth.admin auth.actor store
      .responded response store

/-- What is not refused and asks for no channel is served, by the parts that were received. -/
theorem handle_served [Serde] [Ed25519] (st : State) (env : Env) (store : Store)
    {pieces : List (List UInt8)} {r : Received} (h : receivedFrom pieces = .ok r)
    (hplain : r.asksUpgrade = false) :
    handle st env store pieces =
      .responded (serve st env store r.method r.path r.body r.presented).1
        (serve st env store r.method r.path r.body r.presented).2 := by
  unfold handle
  rw [h]
  dsimp only
  rw [hplain, if_neg Bool.false_ne_true]
  rfl

/-! ## Requests -/

/-- The header of a request: a blank line ends it and does not come before, and its first line has
the method and the path. -/
structure RequestHead (header method path : String) : Prop where
  blank : findHeaderEnd (bytes header ++ [13, 10, 13, 10]) = some (bytes header).length
  line : ∃ version, (lines header.toList).head? =
    some (method.toList ++ ' ' :: (path.toList ++ ' ' :: version))
  method_word : method ≠ "" ∧ ∀ c ∈ method.toList, isWhitespace c = false
  path_word : path ≠ "" ∧ ∀ c ∈ path.toList, isWhitespace c = false

/-- A line of the text reads like a field with a bearer token. -/
def BearsToken (text : String) : Prop :=
  ∃ line ∈ lines text.toList, (bearerOfLine line).isSome = true

/-! ## Tokens -/

/-- What is kept of a text does not end with white space. -/
theorem isWhitespace_of_getLast_trimChars {s : List Char} {c : Char}
    (h : (trimChars s).getLast? = some c) : isWhitespace c = false := by
  rw [trimChars, List.getLast?_reverse] at h
  have hhead := List.head?_dropWhile_not isWhitespace (s.dropWhile isWhitespace).reverse
  rw [h] at hhead
  simpa using hhead

/-- A token is not empty: the value of its field does not end with the blank behind `Bearer`. -/
theorem bearerOfLine_ne_empty {line : List Char} {token : String}
    (h : bearerOfLine line = some token) : token ≠ "" := by
  unfold bearerOfLine at h
  split at h
  · cases h
  · next name value _ =>
    split_ifs at h
    obtain ⟨rest, hrest, rfl⟩ := Option.map_eq_some_iff.mp h
    have hvalue : (trim (String.ofList value)).toList = trimChars value := by
      rw [trim, String.toList_ofList, String.toList_ofList]
    unfold stripPrefix startsWith at hrest
    rw [hvalue] at hrest
    split_ifs at hrest with hbearer
    obtain ⟨tail, htail⟩ := List.isPrefixOf_iff_prefix.mp hbearer
    have hkept : rest.toList = tail := by
      rw [← Option.some.inj hrest, ← htail, String.toList_ofList, ← String.length_toList,
        List.drop_left]
    -- The last character is no white space, so that it is not the one of the prefix.
    have hlast : ∃ c ∈ tail, isWhitespace c = false := by
      rcases List.eq_nil_or_concat tail with rfl | ⟨front, c, rfl⟩
      · have hblank : (trimChars value).getLast? = some ' ' := by
          rw [← htail]
          rfl
        exact absurd (isWhitespace_of_getLast_trimChars hblank) (by decide)
      · refine ⟨c, by simp, isWhitespace_of_getLast_trimChars (s := value) ?_⟩
        rw [← htail, List.concat_eq_append, ← List.append_assoc, List.getLast?_concat]
    obtain ⟨c, hc, hblank⟩ := hlast
    rw [Ne, ← String.toList_eq_nil_iff, trim, String.toList_ofList, hkept]
    exact trimChars_ne_nil hc hblank

/-- A text presents a token when a line of it bears one. -/
theorem presentedIn_eq_empty_iff (text : String) : presentedIn text = "" ↔ ¬BearsToken text := by
  unfold presentedIn BearsToken
  cases hfound : (lines text.toList).findSome? bearerOfLine with
  | none =>
    refine iff_of_true rfl ?_
    rintro ⟨line, hline, hsome⟩
    rw [List.findSome?_eq_none_iff.mp hfound line hline] at hsome
    cases hsome
  | some token =>
    obtain ⟨line, hline, htoken⟩ := List.exists_of_findSome?_eq_some hfound
    refine iff_of_false (bearerOfLine_ne_empty htoken) ?_
    rw [not_not]
    exact ⟨line, hline, by rw [htoken]; rfl⟩

/-! ## The text of a request -/

section Text

variable {header method path body : String}

/-- The lines of a request are those of its header, empty ones, and those of its body. -/
theorem lines_request (header body : String) :
    ∃ blanks : List (List Char), (∀ blank ∈ blanks, blank = []) ∧
      lines (header ++ "\r\n\r\n" ++ body).toList =
        lines header.toList ++ blanks ++ lines body.toList := by
  obtain ⟨blank, hblank, hlines⟩ :=
    lines_append_crlf header.toList ('\r' :: '\n' :: body.toList)
  obtain ⟨second, hsecond, hrest⟩ := lines_append_crlf [] body.toList
  have htext : (header ++ "\r\n\r\n" ++ body).toList =
      header.toList ++ '\r' :: '\n' :: ([] ++ '\r' :: '\n' :: body.toList) := by
    rw [String.toList_append, String.toList_append, List.append_assoc]
    rfl
  have hempty : lines [] = [] := rfl
  refine ⟨blank ++ second, ?_, ?_⟩
  · intro line hline
    rcases List.mem_append.mp hline with hline | hline
    · rcases hblank with rfl | rfl
      · cases hline
      · exact List.mem_singleton.mp hline
    · rcases hsecond with rfl | rfl
      · cases hline
      · exact List.mem_singleton.mp hline
  · rw [htext]
    rw [List.nil_append] at hrest ⊢
    rw [hlines, hrest, hempty, List.nil_append]
    simp only [List.append_assoc]

/-- The token of a request is that of its header, or else that of its body. -/
theorem presentedIn_request (header body : String) :
    presentedIn (header ++ "\r\n\r\n" ++ body) =
      if presentedIn header = "" then presentedIn body else presentedIn header := by
  obtain ⟨blanks, hblanks, hlines⟩ := lines_request header body
  have hnothing : blanks.findSome? bearerOfLine = none := by
    refine List.findSome?_eq_none_iff.mpr ?_
    intro blank hblank
    rw [hblanks blank hblank]
    rfl
  have htext : presentedIn (header ++ "\r\n\r\n" ++ body) =
      (((lines header.toList).findSome? bearerOfLine).or
        ((lines body.toList).findSome? bearerOfLine)).getD "" := by
    rw [presentedIn, hlines, List.findSome?_append, List.findSome?_append, hnothing,
      Option.or_none]
  rw [htext]
  cases hheader : (lines header.toList).findSome? bearerOfLine with
  | none =>
    have hempty : presentedIn header = "" := by
      rw [presentedIn, hheader]
      rfl
    rw [if_pos hempty, Option.none_or]
    rfl
  | some token =>
    have htoken : presentedIn header = token := by
      rw [presentedIn, hheader]
      rfl
    obtain ⟨line, -, hline⟩ := List.exists_of_findSome?_eq_some hheader
    rw [htoken, if_neg (bearerOfLine_ne_empty hline)]
    rfl

/-- The first blank line comes no later than any other. -/
theorem findHeaderEnd_first (front rest : List UInt8) :
    ∃ i ≤ front.length, findHeaderEnd (front ++ [13, 10, 13, 10] ++ rest) = some i := by
  induction front with
  | nil => exact ⟨0, le_rfl, by simp [findHeaderEnd]⟩
  | cons b front ih =>
    obtain ⟨i, hi, hfound⟩ := ih
    rw [List.cons_append, List.cons_append, findHeaderEnd, hfound]
    split_ifs
    · exact ⟨0, Nat.zero_le _, rfl⟩
    · exact ⟨i + 1, Nat.succ_le_succ hi, rfl⟩

/-- The first blank line of a request is the one behind its header. -/
theorem RequestHead.split (h : RequestHead header method path) (body : String) :
    splitOnceAt blankLine (header ++ "\r\n\r\n" ++ body).toList =
      some (header.toList, body.toList) := by
  have htext : (header ++ "\r\n\r\n" ++ body).toList =
      header.toList ++ blankLine ++ body.toList := by
    rw [String.toList_append, String.toList_append]
    rfl
  obtain ⟨front, rest, hfound, hle⟩ :=
    splitOnceAt_append blankLine header.toList body.toList
  have hsplit := splitOnceAt_eq_some hfound
  have hlength : front.length = header.toList.length := by
    -- A blank line before would be one of the bytes as well.
    have hfront : front ++ blankLine <+: header.toList ++ blankLine ++ body.toList := by
      rw [hsplit]
      exact List.prefix_append _ _
    have hcount : (front ++ blankLine).length ≤ (header.toList ++ blankLine).length := by
      rw [List.length_append, List.length_append]
      omega
    obtain ⟨tail, htail⟩ :=
      List.prefix_of_prefix_length_le hfront (List.prefix_append _ _) hcount
    have hbytes : bytes header ++ [13, 10, 13, 10] =
        bytes (String.ofList front) ++ [13, 10, 13, 10] ++ bytes (String.ofList tail) := by
      have hblank : bytes "\r\n\r\n" = [13, 10, 13, 10] := by decide
      rw [← hblank, ← bytes_append, ← bytes_append, ← bytes_append, bytes_inj, ← String.toList_inj]
      simpa [String.toList_append, blankLine] using htail.symm
    obtain ⟨i, hi, hfirst⟩ := findHeaderEnd_first (bytes (String.ofList front))
      (bytes (String.ofList tail))
    rw [← hbytes, h.blank, Option.some.injEq] at hfirst
    have hcount := congrArg List.length hbytes
    simp only [List.length_append] at hcount
    have htail' : bytes (String.ofList tail) = [] := List.length_eq_zero_iff.mp (by omega)
    have hnil : tail = [] := by
      have hempty : String.ofList tail = "" := bytes_inj.mp (htail'.trans rfl)
      simpa using congrArg String.toList hempty
    have hsame := congrArg List.length htail
    rw [hnil, List.append_nil, List.length_append, List.length_append] at hsame
    omega
  rw [htext, hfound]
  obtain ⟨hfront, hrest⟩ := List.append_inj
    (by rw [← List.append_assoc, ← hsplit, List.append_assoc] : front ++ (blankLine ++ rest) =
      header.toList ++ (blankLine ++ body.toList)) hlength
  rw [hfront, List.append_cancel_left hrest]

/-- The bytes of a request. -/
theorem bytes_request (header body : String) :
    bytes (header ++ "\r\n\r\n" ++ body) = bytes header ++ [13, 10, 13, 10] ++ bytes body := by
  have hblank : bytes "\r\n\r\n" = [13, 10, 13, 10] := by decide
  rw [bytes_append, bytes_append, hblank]

/-- The first line of a request is split into its words. -/
theorem RequestHead.words (h : RequestHead header method path) (body : String) :
    ∃ others, splitWhitespace
      ((lines (header ++ "\r\n\r\n" ++ body).toList).head?.getD []) =
        method.toList :: path.toList :: others := by
  obtain ⟨version, hline⟩ := h.line
  obtain ⟨blanks, -, hlines⟩ := lines_request header body
  have hblank : isWhitespace ' ' = true := by decide
  have hmethod : method.toList ≠ [] := by
    rw [Ne, String.toList_eq_nil_iff]
    exact h.method_word.1
  have hpath : path.toList ≠ [] := by
    rw [Ne, String.toList_eq_nil_iff]
    exact h.path_word.1
  refine ⟨splitWhitespace version, ?_⟩
  rw [hlines, List.head?_append, List.head?_append, hline, Option.some_or, Option.some_or,
    Option.getD_some, splitWhitespace_cons hmethod h.method_word.2 hblank,
    splitWhitespace_cons hpath h.path_word.2 hblank]

/-- The parts of a request. Only its body and its token may be others than those that it has. -/
theorem RequestHead.received (h : RequestHead header method path) (body : String) :
    received (bytes (header ++ "\r\n\r\n" ++ body)) =
      { header := header
        method := method
        path := path
        body := String.ofList
          ((secondOfSplit blankLine (header ++ "\r\n\r\n" ++ body).toList).getD [])
        presented := if presentedIn header = "" then presentedIn body else presentedIn header } := by
  obtain ⟨others, hwords⟩ := h.words body
  have hheader : requestHeader (bytes (header ++ "\r\n\r\n" ++ body)) = header := by
    rw [requestHeader, bytes_request, findHeaderEnd_append h.blank, Option.bind_some,
      List.append_assoc, List.take_left, fromUTF8_bytes]
    rfl
  unfold ControlPlane.received
  dsimp only
  rw [fromUtf8Lossy_bytes, hheader, hwords, presentedIn_request]
  simp

/-- A request that its header announces is read whole, however it is cut. -/
theorem RequestHead.readRequest (h : RequestHead header method path)
    (hlength : requestContentLength header = .ok (len body))
    (hsize : len (header ++ "\r\n\r\n" ++ body) ≤ maxRequestBytes) {pieces : List (List UInt8)}
    (hpieces : PiecesOf 4096 (bytes (header ++ "\r\n\r\n" ++ body)) pieces) :
    readRequest pieces = .ok (bytes (header ++ "\r\n\r\n" ++ body)) := by
  have hwhole := hpieces.whole
  have hcount : pieces.flatten.length ≤ maxRequestBytes := by
    rw [hwhole, ← len_eq_length]
    exact hsize
  have hlimit : maxRequestBytes < 2^64 := by decide
  rw [bytes_request] at hwhole
  rw [readRequest_eq (findHeaderEnd_append h.blank _) hlength hwhole (by omega), if_pos hcount,
    hwhole, bytes_request]

/-- The body that is received is the body, as long as it has no blank line. -/
theorem RequestHead.body_eq_iff (h : RequestHead header method path) (body : String) :
    String.ofList ((secondOfSplit blankLine (header ++ "\r\n\r\n" ++ body).toList).getD []) = body ↔
      ¬blankLine <:+: body.toList := by
  have hsplit := h.split body
  rw [← secondOfSplit_eq_iff (by decide) hsplit, ← String.toList_inj, String.toList_ofList,
    secondOfSplit, hsplit, Option.map_some, Option.getD_some, Option.some.injEq]

/-- A request is taken apart at its first blank line, and a token is looked for in both parts. -/
theorem RequestHead.receivedFrom (h : RequestHead header method path)
    (hlength : requestContentLength header = .ok (len body))
    (hsize : len (header ++ "\r\n\r\n" ++ body) ≤ maxRequestBytes) {pieces : List (List UInt8)}
    (hpieces : PiecesOf 4096 (bytes (header ++ "\r\n\r\n" ++ body)) pieces) :
    ControlPlane.receivedFrom pieces = .ok ⟨header, method, path,
      String.ofList ((secondOfSplit blankLine (header ++ "\r\n\r\n" ++ body).toList).getD []),
      if presentedIn header = "" then presentedIn body else presentedIn header⟩ := by
  rw [ControlPlane.receivedFrom, h.readRequest hlength hsize hpieces, Except.map, h.received]

/-- **When a request is taken apart right.** Its method, path and body are passed on as they are,
with the token of its header, exactly when the body has no blank line, and no line of the body
bears a token unless one of the header does. -/
theorem framing_iff (h : RequestHead header method path)
    (hlength : requestContentLength header = .ok (len body))
    (hsize : len (header ++ "\r\n\r\n" ++ body) ≤ maxRequestBytes) {pieces : List (List UInt8)}
    (hpieces : PiecesOf 4096 (bytes (header ++ "\r\n\r\n" ++ body)) pieces) :
    receivedFrom pieces = .ok ⟨header, method, path, body, presentedIn header⟩ ↔
      ¬blankLine <:+: body.toList ∧ (BearsToken header ∨ ¬BearsToken body) := by
  have hpresented : (if presentedIn header = "" then presentedIn body else presentedIn header) =
      presentedIn header ↔ BearsToken header ∨ ¬BearsToken body := by
    split_ifs with hempty
    · have hheader := (presentedIn_eq_empty_iff header).mp hempty
      rw [hempty, presentedIn_eq_empty_iff, or_iff_right hheader]
    · refine iff_of_true rfl (.inl ?_)
      rwa [presentedIn_eq_empty_iff, not_not] at hempty
  rw [h.receivedFrom hlength hsize hpieces, Except.ok.injEq, Received.mk.injEq, h.body_eq_iff,
    hpresented]
  simp

end Text

/-- The lines of a header, a request line in front, are the head of a request. -/
theorem RequestHead.of_lines (method path version : String) (fields : List String)
    (hlines : ∀ line ∈ (method ++ " " ++ path ++ " " ++ version) :: fields, HeaderLine line)
    (hmethod : method ≠ "" ∧ ∀ c ∈ method.toList, isWhitespace c = false)
    (hpath : path ≠ "" ∧ ∀ c ∈ path.toList, isWhitespace c = false) :
    RequestHead ("\r\n".intercalate ((method ++ " " ++ path ++ " " ++ version) :: fields))
      method path where
  blank := by
    have hblank := findHeaderEnd_headerLines hlines (List.cons_ne_nil _ _) []
    rwa [List.append_nil] at hblank
  line := by
    refine ⟨version.toList, ?_⟩
    rw [lines_headerLines hlines (List.cons_ne_nil _ _)]
    simp
  method_word := hmethod
  path_word := hpath

/-! ## The sum of the lengths -/

section Lengths

variable {pieces : List (List UInt8)} {header_end content_length : ℕ} {request : List UInt8}
  {rest : List (List UInt8)} {header : String}

/-- The length that a header announces is a `usize`. -/
theorem contentLengthOf_le {content_length : Option ℕ} {ls : List (List Char)} {n : ℕ}
    (hstart : ∀ m ∈ content_length, m ≤ u64Max) (h : contentLengthOf content_length ls = .ok n) :
    n ≤ u64Max := by
  induction ls generalizing content_length with
  | nil =>
    rw [contentLengthOf, Except.ok.injEq] at h
    rw [← h]
    cases content_length with
    | none => exact Nat.zero_le _
    | some m => exact hstart m rfl
  | cons line rest ih =>
    unfold contentLengthOf at h
    dsimp only at h
    repeat' split at h
    all_goals first | cases h | skip
    · exact ih hstart h
    · next hparsed _ =>
      -- The line announces a length, which the parser bounds.
      refine ih (fun m hm => ?_) h
      rw [Option.mem_def, Option.some.injEq] at hm
      rw [← hm]
      exact of_decide_eq_true (Option.filter_eq_some_iff.mp hparsed).2
    · exact ih hstart h

/-- A header that is read has its blank line, and is within the limit. -/
theorem readHeader_ok {read : List UInt8}
    (h : readHeader read pieces = .ok (header_end, request, rest)) :
    header_end + 4 ≤ request.length ∧ request.length ≤ maxRequestBytes := by
  induction pieces generalizing read with
  | nil => cases h
  | cons piece pieces ih =>
    rw [readHeader] at h
    by_cases hlarge : (read ++ piece).length > maxRequestBytes
    · rw [if_pos hlarge] at h
      cases h
    · rw [if_neg hlarge] at h
      cases hfound : findHeaderEnd (read ++ piece) with
      | none =>
        rw [hfound] at h
        exact ih h
      | some i =>
        rw [hfound] at h
        cases h
        exact ⟨findHeaderEnd_le hfound, by omega⟩

/-- A body that is read ends a request of the length, with what was read before at its front. -/
theorem readBody_ok {total n : ℕ} {slice : List UInt8} (hn : n ≤ request.length) (htotal : n ≤ total)
    (h : readBody total request rest = .ok slice) :
    slice.length = total ∧ request.take n <+: slice := by
  induction rest generalizing request with
  | nil =>
    rw [readBody] at h
    split_ifs at h with hwhole
    rw [← Except.ok.inj h]
    exact ⟨List.length_take_of_le hwhole, List.take_prefix_take_left htotal⟩
  | cons piece rest ih =>
    rw [readBody] at h
    split_ifs at h with hwhole
    · rw [← Except.ok.inj h]
      exact ⟨List.length_take_of_le hwhole, List.take_prefix_take_left htotal⟩
    · have hmore : n ≤ (request ++ piece).length := by
        rw [List.length_append]
        omega
      have hrest := ih hmore h
      rwa [List.take_append_of_le_length hn] at hrest

/-- What is right about the sum of the lengths: it is what it says, a sum beyond the limit is
refused, and the request is a slice of that length that starts with the header and its blank
line. -/
structure LengthsFit (header_end content_length : ℕ) (request : List UInt8)
    (answer : Except Response (List UInt8)) : Prop where
  no_wrap : (header_end + 4 + content_length) % 2^64 = header_end + 4 + content_length
  too_large : maxRequestBytes < header_end + 4 + content_length → answer = .error requestTooLarge
  in_bounds : ∀ slice, answer = .ok slice → slice.length = header_end + 4 + content_length ∧
    request.take (header_end + 4) <+: slice

/-- Behind a header that is read, `handle` goes by the sum. -/
theorem readRequest_sum (hread : readHeader [] pieces = .ok (header_end, request, rest))
    (hheader : String.fromUTF8? ⟨(request.take header_end).toArray⟩ = some header)
    (hlength : requestContentLength header = .ok content_length) :
    NodeWe.ControlPlane.readRequest pieces =
      if (header_end + 4 + content_length) % 2^64 > maxRequestBytes then .error requestTooLarge
      else readBody ((header_end + 4 + content_length) % 2^64) request rest := by
  unfold NodeWe.ControlPlane.readRequest
  rw [hread]
  dsimp only
  rw [hheader]
  dsimp only
  rw [hlength]

/-- A sum that wraps is smaller than the header, so that the request is the header without its
blank line, or less. -/
theorem readRequest_wrapped (hread : readHeader [] pieces = .ok (header_end, request, rest))
    (hheader : String.fromUTF8? ⟨(request.take header_end).toArray⟩ = some header)
    (hlength : requestContentLength header = .ok content_length)
    (hwrap : 2^64 ≤ header_end + 4 + content_length) :
    NodeWe.ControlPlane.readRequest pieces =
        .ok (request.take (header_end + 4 + content_length - 2^64)) ∧
      header_end + 4 + content_length - 2^64 < header_end + 4 := by
  have hmax : content_length ≤ u64Max := contentLengthOf_le (by simp) hlength
  have hbounds := readHeader_ok hread
  have hlimit : maxRequestBytes = 65536 := rfl
  have hsum : (header_end + 4 + content_length) % 2^64 = header_end + 4 + content_length - 2^64 := by
    unfold u64Max at hmax
    omega
  have hsmall : header_end + 4 + content_length - 2^64 < header_end + 4 := by
    unfold u64Max at hmax
    omega
  have hbody : readBody (header_end + 4 + content_length - 2^64) request rest =
      .ok (request.take (header_end + 4 + content_length - 2^64)) := by
    unfold readBody
    rw [if_pos (by omega)]
  rw [readRequest_sum hread hheader hlength, hsum, if_neg (by omega), hbody]
  exact ⟨rfl, hsmall⟩

/-- Behind every header that is read, the sum of the lengths is right exactly where it does not
wrap. Where it does, a request that announces too much is received without its blank line. -/
theorem lengths_fit_iff (hread : readHeader [] pieces = .ok (header_end, request, rest))
    (hheader : String.fromUTF8? ⟨(request.take header_end).toArray⟩ = some header)
    (hlength : requestContentLength header = .ok content_length) :
    (LengthsFit header_end content_length request (NodeWe.ControlPlane.readRequest pieces) ↔
        header_end + 4 + content_length < 2^64) ∧
      (2^64 ≤ header_end + 4 + content_length → ∃ slice,
        NodeWe.ControlPlane.readRequest pieces = .ok slice ∧
          ¬request.take (header_end + 4) <+: slice) := by
  have hbounds := readHeader_ok hread
  refine ⟨⟨fun hfit => ?_, fun hsmall => ?_⟩, fun hwrap => ?_⟩
  · have hmod := hfit.no_wrap
    omega
  · have hsum := Nat.mod_eq_of_lt hsmall
    have hanswer := readRequest_sum hread hheader hlength
    rw [hsum] at hanswer
    refine ⟨hsum, fun hlarge => ?_, fun slice hslice => ?_⟩
    · rw [hanswer, if_pos hlarge]
    · rw [hanswer] at hslice
      split_ifs at hslice with hlarge
      · exact readBody_ok hbounds.1 (by omega) hslice
  · obtain ⟨hanswer, hshort⟩ := readRequest_wrapped hread hheader hlength hwrap
    refine ⟨_, hanswer, fun hprefix => ?_⟩
    have hle := hprefix.length_le
    rw [List.length_take, List.length_take] at hle
    omega

end Lengths

section Example

/-- The header of a request that enrols a node. -/
def nodeHeader : String := "\r\n".intercalate ["POST /v1/nodes HTTP/1.1", "Content-Length: 23"]

/-- A body with a line like a field. -/
def fieldBody : String := "Authorization: Bearer t"

/-- A body with a blank line between two tokens of JSON. -/
def blankBody : String := "\x7b\r\n\r\n\"node_id\":\"n1234\"\x7d"

/-- A body without either. -/
def plainBody : String := "\x7b\"node_id\":\"node-no-1\"\x7d"

/-- What `handle` finds in the header and the bodies. -/
theorem nodeRequests_evaluated :
    requestContentLength nodeHeader = .ok 23 ∧ presentedIn nodeHeader = "" ∧
      presentedIn fieldBody = "t" ∧ presentedIn plainBody = "" ∧ presentedIn blankBody = "" ∧
      secondOfSplit blankLine (nodeHeader ++ "\r\n\r\n" ++ fieldBody).toList =
        some fieldBody.toList ∧
      secondOfSplit blankLine (nodeHeader ++ "\r\n\r\n" ++ blankBody).toList = some ['\x7b'] ∧
      splitOnceAt blankLine plainBody.toList = none ∧
      "POST".toList.all (!isWhitespace ·) = true ∧
      "/v1/nodes".toList.all (!isWhitespace ·) = true ∧
      "POST /v1/nodes HTTP/1.1".toList.all (!isAsciiControl ·) = true ∧
      "Content-Length: 23".toList.all (!isAsciiControl ·) = true := by
  decide +kernel

/-- The header is the head of a request. -/
theorem requestHead_nodeHeader : RequestHead nodeHeader "POST" "/v1/nodes" := by
  obtain ⟨-, -, -, -, -, -, -, -, hmethod, hpath, hline, hfield⟩ := nodeRequests_evaluated
  simp only [List.all_eq_true, Bool.not_eq_true'] at hmethod hpath hline hfield
  refine .of_lines "POST" "/v1/nodes" "HTTP/1.1" ["Content-Length: 23"] ?_
    ⟨by decide, hmethod⟩ ⟨by decide, hpath⟩
  simp only [List.forall_mem_cons, List.not_mem_nil, false_imp_iff, implies_true, and_true]
  exact ⟨⟨by decide, hline⟩, ⟨by decide, hfield⟩⟩

/-- A short request comes in one piece. -/
theorem piecesOf_short {text : String} (hne : text ≠ "") (hshort : len text ≤ 4096) :
    PiecesOf 4096 (bytes text) [bytes text] := by
  refine ⟨by simp, ?_⟩
  rw [List.forall_mem_singleton, Ne, ← List.length_eq_zero_iff, ← len_eq_length]
  refine ⟨?_, hshort⟩
  simpa [len] using hne

/-- Two bodies of one length under one header: the first presents a token that the header does not
have, and the second is cut. -/
theorem framing_unfaithful :
    RequestHead nodeHeader "POST" "/v1/nodes" ∧ presentedIn nodeHeader = "" ∧
      (∀ body ∈ [fieldBody, blankBody], requestContentLength nodeHeader = .ok (len body) ∧
        PiecesOf 4096 (bytes (nodeHeader ++ "\r\n\r\n" ++ body))
          [bytes (nodeHeader ++ "\r\n\r\n" ++ body)]) ∧
      receivedFrom [bytes (nodeHeader ++ "\r\n\r\n" ++ fieldBody)] =
        .ok ⟨nodeHeader, "POST", "/v1/nodes", fieldBody, "t"⟩ ∧
      receivedFrom [bytes (nodeHeader ++ "\r\n\r\n" ++ blankBody)] =
        .ok ⟨nodeHeader, "POST", "/v1/nodes", "\x7b", ""⟩ := by
  obtain ⟨hlength, hheader, hfield, -, hblank, hfirst, hsecond, -⟩ := nodeRequests_evaluated
  have hhead := requestHead_nodeHeader
  have hpieces : ∀ body ∈ [fieldBody, blankBody],
      requestContentLength nodeHeader = .ok (len body) ∧
        PiecesOf 4096 (bytes (nodeHeader ++ "\r\n\r\n" ++ body))
          [bytes (nodeHeader ++ "\r\n\r\n" ++ body)] := by
    simp only [List.forall_mem_cons, List.not_mem_nil, false_imp_iff, implies_true, and_true]
    exact ⟨⟨hlength, piecesOf_short (by decide) (by decide)⟩,
      ⟨hlength, piecesOf_short (by decide) (by decide)⟩⟩
  refine ⟨hhead, hheader, hpieces, ?_, ?_⟩
  · obtain ⟨hannounced, hcut⟩ := hpieces fieldBody (by simp)
    rw [receivedFrom, hhead.readRequest hannounced (by decide) hcut, Except.map, hhead.received,
      hheader, hfield, hfirst]
    rfl
  · obtain ⟨hannounced, hcut⟩ := hpieces blankBody (by simp)
    rw [receivedFrom, hhead.readRequest hannounced (by decide) hcut, Except.map, hhead.received,
      hheader, hblank, hsecond]
    rfl

/-- A body without a blank line and without a token is received with its request. -/
theorem framing_plain :
    receivedFrom [bytes (nodeHeader ++ "\r\n\r\n" ++ plainBody)] =
      .ok ⟨nodeHeader, "POST", "/v1/nodes", plainBody, presentedIn nodeHeader⟩ := by
  obtain ⟨hlength, -, -, hplain, -, -, -, hnone, -⟩ := nodeRequests_evaluated
  have hannounced : requestContentLength nodeHeader = .ok (len plainBody) := hlength
  have hcut : PiecesOf 4096 _ [bytes (nodeHeader ++ "\r\n\r\n" ++ plainBody)] :=
    piecesOf_short (by decide) (by decide)
  refine (framing_iff requestHead_nodeHeader hannounced (by decide) hcut).mpr ⟨?_, .inr ?_⟩
  · exact splitOnceAt_eq_none_iff.mp hnone
  · exact (presentedIn_eq_empty_iff plainBody).mp hplain

/-- A header that announces a length. -/
def announcing (content_length : String) : String :=
  "GET / HTTP/1.1\r\nContent-Length: " ++ content_length

/-- It is read when it comes in one piece, blank line included, whatever comes behind it. -/
theorem announcing_read {content_length : String} {n : ℕ} (rest : List (List UInt8))
    (h : findHeaderEnd (bytes (announcing content_length ++ "\r\n\r\n")) =
        some (bytes (announcing content_length)).length ∧
      requestContentLength (announcing content_length) = .ok n ∧
      (bytes (announcing content_length ++ "\r\n\r\n")).length ≤ maxRequestBytes) :
    ∃ header_end request header,
      readHeader [] (bytes (announcing content_length ++ "\r\n\r\n") :: rest) =
        .ok (header_end, request, rest) ∧
      String.fromUTF8? ⟨(request.take header_end).toArray⟩ = some header ∧
      requestContentLength header = .ok n ∧
      header_end = (bytes (announcing content_length)).length := by
  obtain ⟨hfound, hlength, hshort⟩ := h
  refine ⟨_, bytes (announcing content_length ++ "\r\n\r\n"), announcing content_length, ?_, ?_,
    hlength, rfl⟩
  · rw [readHeader, List.nil_append, if_neg (by omega), hfound]
  · rw [bytes_append, List.take_left, fromUTF8_bytes]

/-- A small length, and the largest one. -/
theorem announcing_evaluated :
    (findHeaderEnd (bytes (announcing "7" ++ "\r\n\r\n")) =
        some (bytes (announcing "7")).length ∧
      requestContentLength (announcing "7") = .ok 7 ∧
      (bytes (announcing "7" ++ "\r\n\r\n")).length ≤ maxRequestBytes) ∧
    (findHeaderEnd (bytes (announcing "18446744073709551615" ++ "\r\n\r\n")) =
        some (bytes (announcing "18446744073709551615")).length ∧
      requestContentLength (announcing "18446744073709551615") = .ok (2^64 - 1) ∧
      (bytes (announcing "18446744073709551615" ++ "\r\n\r\n")).length ≤ maxRequestBytes) ∧
    (bytes (announcing "7")).length < 64 := by
  decide +kernel

/-- The sum is right for a request whose body of seven bytes comes in a piece of its own. -/
theorem lengths_fit_body : ∃ header_end request,
    LengthsFit header_end 7 request (NodeWe.ControlPlane.readRequest
      [bytes (announcing "7" ++ "\r\n\r\n"), bytes "\x7b\"a\":1\x7d"]) := by
  obtain ⟨hsmall, -, hlimit⟩ := announcing_evaluated
  obtain ⟨header_end, request, header, hread, hheader, hlength, hend⟩ := announcing_read _ hsmall
  exact ⟨header_end, request, (lengths_fit_iff hread hheader hlength).1.mpr (by omega)⟩

/-- It wraps for the largest length, and the request is received. -/
theorem lengths_wrap : ∃ header_end request rest header content_length,
    readHeader [] [bytes (announcing "18446744073709551615" ++ "\r\n\r\n")] =
        .ok (header_end, request, rest) ∧
      String.fromUTF8? ⟨(request.take header_end).toArray⟩ = some header ∧
      requestContentLength header = .ok content_length ∧
      maxRequestBytes < header_end + 4 + content_length ∧
      NodeWe.ControlPlane.readRequest
        [bytes (announcing "18446744073709551615" ++ "\r\n\r\n")] =
          .ok (request.take (header_end + 3)) ∧
      ¬LengthsFit header_end content_length request
        (NodeWe.ControlPlane.readRequest
          [bytes (announcing "18446744073709551615" ++ "\r\n\r\n")]) := by
  obtain ⟨-, hlargest, -⟩ := announcing_evaluated
  obtain ⟨header_end, request, header, hread, hheader, hlength, -⟩ := announcing_read [] hlargest
  obtain ⟨hanswer, -⟩ := readRequest_wrapped hread hheader hlength (by omega)
  have hsum : header_end + 4 + (2^64 - 1) - 2^64 = header_end + 3 := by omega
  rw [hsum] at hanswer
  refine ⟨header_end, request, [], header, _, hread, hheader, hlength, ?_, hanswer, fun hfit => ?_⟩
  · unfold maxRequestBytes
    omega
  · have hmod := hfit.no_wrap
    omega

end Example

end NodeWe.ControlPlane
