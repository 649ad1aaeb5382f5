import Webroar.Worker.Encoding

/-! # Heads of static responses

A response of the static worker is well formed when its head fits into the buffer it is printed to,
has the phrase of its code, and gives every field the value that belongs to it. The error responders
hand the date over where the format has the phrase, so theirs are never well formed; the head of the
others is as long as the client makes its `Connection` field.
-/

open Worker (HttpResp)
open Worker.Writer (Carries)

namespace StaticServer

section WellFormed

variable (server : Server) (now : Int) (values : Values)

/-- The values that belong to the fields of a response with so many bytes in its body. -/
inductive Belongs (status : RespStatus) (sent : Nat) : List UInt8 → List UInt8 → Prop where
  | date : Belongs status sent (ascii "Date") (timeToHttpdate now)
  | server : Belongs status sent (ascii "Server") serverText
  | connection : Belongs status sent (ascii "Connection") (connection values)
  | lastModified {path : Text} {buf : Stat} : values Request.filePathName = some path →
      server.stat path.1 = some buf →
      Belongs status sent (ascii "Last-Modified") (timeToHttpdate buf.mtime)
  | expires {path : Text} {ext : StaticFile} : values Request.filePathName = some path →
      getMimeType server.dict path.1 = some ext → 0 < ext.expires →
      Belongs status sent (ascii "Expires") (timeToHttpdate (now + ext.expires))
  | contentEncoding {path : Text} {buf : Stat} {encoding : ContentEncoding} :
      values Request.filePathName = some path → server.stat path.1 = some buf →
      server.wanted values path.1 buf = some encoding →
      Belongs status sent (ascii "Content-Encoding") encoding.text
  | contentType {path : Text} {ext : StaticFile} : status = .status200 →
      values Request.filePathName = some path → getMimeType server.dict path.1 = some ext →
      Belongs status sent (ascii "Content-Type") ext.mimeType.1
  | page : status = .status403 ∨ status = .status404 →
      Belongs status sent (ascii "Content-Type") (ascii "text/html")
  | contentLength : Belongs status sent (ascii "Content-Length") (Decimal.ofNat sent)

/-- The head of a response fits and says what is so. -/
structure WellFormed (resp : HttpResp) : Prop where
  fits : resp.header.length < strSize512
  head : ∃ (status : RespStatus) (body : List UInt8) (head : HttpHead),
    resp.respCode = status.entry.1 ∧ Carries true resp body ∧ head.Plain ∧
      resp.header = head.render ∧ head.status = status.phrase ∧
      ∀ field ∈ head.fields, Belongs server now values status body.length field.1 field.2

/-- The bytes of the body of a response with a file. -/
def sentLength (path : List UInt8) (buf : Stat) : Nat :=
  ((server.body values path buf).map fun body => body.2.length).getD buf.size

/-- The length of the line of a field that may be missing, with a name of so many bytes. -/
def optionalLength (name : Nat) (value : Option (List UInt8)) : Nat :=
  (value.map fun text => name + text.length + 4).getD 0

/-- The length of the head of a response with a file. -/
def length200 (path : List UInt8) (buf : Stat) (ext : StaticFile) : Nat :=
  115 + (timeToHttpdate now).length + (timeToHttpdate buf.mtime).length +
    optionalLength 7 (expireDate now ext) + (connection values).length +
    optionalLength 16 ((server.body values path buf).map fun body => body.1.text) +
    ext.mimeType.1.length + (Decimal.ofNat (sentLength server values path buf)).length

/-- The length of the head of a response to a client that has the file. -/
def length304 (ext : StaticFile) : Nat :=
  74 + (timeToHttpdate now).length + optionalLength 7 (expireDate now ext) +
    (connection values).length

/-- A response with a status has a head that fits, and a body that can be told. -/
def Fitting (path : List UInt8) (buf : Stat) (ext : StaticFile) : RespStatus → Prop
  | .status200 => server.Reads values path buf ∧ sentLength server values path buf < 2 ^ 31 ∧
      length200 server now values path buf ext < strSize512 ∧
      (server.body values path buf = none → server.content path ≠ none ∨ buf.size = 0)
  | .status304 => length304 now values ext < strSize512
  | .status403 => False
  | .status404 => False

/-- A request that gets a well formed response. -/
def Formed : Prop :=
  ∃ (path : Text) (buf : Stat) (ext : StaticFile),
    values Request.filePathName = some path ∧ server.stat path.1 = some buf ∧
    getMimeType server.dict path.1 = some ext ∧
    Fitting server now values path.1 buf ext (getRespCode server.timezone server.memory server.stat
      (some path.1) ((values (ascii "HTTP_IF_MODIFIED_SINCE")).map fun text => text.1))

end WellFormed

variable {server : Server} {now : Int} {values : Values} {path : Text} {buf : Stat}
  {ext : StaticFile} {start : HttpResp}

/-! ### Lengths -/

theorem length_names : (ascii "Date").length = 4 ∧ (ascii "Server").length = 6 ∧
    (ascii "Last-Modified").length = 13 ∧ (ascii "Expires").length = 7 ∧
    (ascii "Connection").length = 10 ∧ (ascii "Content-Encoding").length = 16 ∧
    (ascii "Content-Type").length = 12 ∧ (ascii "Content-Length").length = 14 ∧
    serverText.length = 13 ∧ RespStatus.status200.phrase.length = 6 ∧
    RespStatus.status304.phrase.length = 16 := by
  decide +kernel

theorem length_lines_optional (name : List UInt8) (value : Option (List UInt8)) :
    (HttpHead.lines (optional name value)).length = optionalLength name.length value := by
  cases value with
  | none => rfl
  | some text =>
      have one : optional name (some text) = [(name, text)] := rfl
      rw [one, HttpHead.lines_cons, HttpHead.lines_nil, List.append_nil, HttpHead.length_line]
      rfl

theorem length_head200 (currentDate modifyDate : List UInt8) (expireDate : Option (List UInt8))
    (connHeader : List UInt8) (encoding : Option ContentEncoding) (mimeType : List UInt8)
    (length : Nat) :
    (head200 currentDate modifyDate expireDate connHeader encoding mimeType length).render.length =
      115 + currentDate.length + modifyDate.length + optionalLength 7 expireDate +
        connHeader.length + optionalLength 16 (encoding.map ContentEncoding.text) +
        mimeType.length + (Decimal.format length).length := by
  obtain ⟨date, name, change, expiry, connected, coding, type, count, text, phrase, -⟩ := length_names
  rw [HttpHead.length_render, head200]
  dsimp only
  rw [HttpHead.lines_cons, HttpHead.lines_cons, HttpHead.lines_cons, HttpHead.lines_append,
    HttpHead.lines_cons, HttpHead.lines_append, HttpHead.lines_cons, HttpHead.lines_cons,
    HttpHead.lines_nil]
  simp only [List.length_append, HttpHead.length_line, length_lines_optional, date, name, change,
    expiry, connected, coding, type, count, text, phrase]
  have none : ([] : List UInt8).length = 0 := rfl
  omega

theorem length_head304 (currentDate : List UInt8) (expireDate : Option (List UInt8))
    (connHeader : List UInt8) : (head304 currentDate expireDate connHeader).render.length =
      74 + currentDate.length + optionalLength 7 expireDate + connHeader.length := by
  obtain ⟨date, name, -, expiry, connected, -, -, -, text, -, phrase⟩ := length_names
  rw [HttpHead.length_render, head304]
  dsimp only
  rw [HttpHead.lines_cons, HttpHead.lines_cons, HttpHead.lines_append, HttpHead.lines_cons,
    HttpHead.lines_nil]
  simp only [List.length_append, HttpHead.length_line, length_lines_optional, date, name, expiry,
    connected, text, phrase]
  have none : ([] : List UInt8).length = 0 := rfl
  omega

/-! ### The responders -/

theorem belongs_part {status : RespStatus} {sent : Nat} {field : List UInt8 × List UInt8}
    {name value : List UInt8} (same : field = (name, value))
    (belongs : Belongs server now values status sent name value) :
    Belongs server now values status sent field.1 field.2 := by
  subst same
  exact belongs

/-- The date of an expiry belongs to the file. -/
theorem belongs_expires {status : RespStatus} {sent : Nat} {date : List UInt8}
    (given : values Request.filePathName = some path)
    (found : getMimeType server.dict path.1 = some ext) (set : expireDate now ext = some date) :
    Belongs server now values status sent (ascii "Expires") date := by
  unfold expireDate at set
  by_cases later : 0 < ext.expires
  · rw [if_pos later] at set
    have same := Option.some_inj.mp set
    subst same
    exact .expires given found later
  · rw [if_neg later] at set
    exact absurd set.symm (Option.some_ne_none date)

/-- The value of `Content-Length` counts the body. -/
theorem contentLength_eq {status : RespStatus} {sent : Nat} {field : List UInt8 × List UInt8}
    (belongs : Belongs server now values status sent field.1 field.2)
    (same : field.1 = ascii "Content-Length") : field.2 = Decimal.ofNat sent := by
  have others : ascii "Date" ≠ ascii "Content-Length" ∧ ascii "Server" ≠ ascii "Content-Length" ∧
      ascii "Last-Modified" ≠ ascii "Content-Length" ∧
      ascii "Expires" ≠ ascii "Content-Length" ∧ ascii "Connection" ≠ ascii "Content-Length" ∧
      ascii "Content-Encoding" ≠ ascii "Content-Length" ∧
      ascii "Content-Type" ≠ ascii "Content-Length" := by
    decide +kernel
  obtain ⟨date, name, change, expiry, connected, coding, type⟩ := others
  generalize field.1 = label at belongs same
  generalize field.2 = value at belongs ⊢
  cases belongs with
  | date => exact absurd same date
  | server => exact absurd same name
  | connection => exact absurd same connected
  | lastModified => exact absurd same change
  | expires => exact absurd same expiry
  | contentEncoding => exact absurd same coding
  | contentType => exact absurd same type
  | page => exact absurd same type
  | contentLength => rfl

/-- The bytes that go out behind the head of a response with a file. -/
theorem respond200_bodyLen (body : Option (ContentEncoding × List UInt8)) :
    (respond200 server now values path.1 buf ext body start).bodyLen =
      (body.map fun body => body.2.length).getD buf.size := by
  cases body with
  | none => rfl
  | some body => rfl

theorem respond200_header (body : Option (ContentEncoding × List UInt8)) :
    (respond200 server now values path.1 buf ext body start).header =
      (head200 (timeToHttpdate now) (timeToHttpdate buf.mtime) (expireDate now ext)
        (connection values) (body.map Prod.fst) ext.mimeType.1
        ((body.map fun body => body.2.length).getD buf.size)).render := by
  cases body with
  | none => exact print200_eq _ _ _ _ _ _ _
  | some body => exact print200_eq _ _ _ _ _ _ _

/-- A body is sent unless the file is to be sent and does not open. -/
theorem respond200_carries_iff (now : Int) (values : Values) (ext : StaticFile) (start : HttpResp)
    (unchanged : server.Unchanged path.1 buf)
    (body : Option (ContentEncoding × List UInt8)) :
    (∃ sent, Carries true (respond200 server now values path.1 buf ext body start.set) sent) ↔
      (body = none → server.content path.1 ≠ none ∨ buf.size = 0) := by
  cases body with
  | some body => exact iff_of_true ⟨body.2, rfl, .inl rfl⟩ nofun
  | none =>
      constructor
      · rintro ⟨sent, length, carries⟩ -
        rcases carries with same | ⟨-, rfl⟩ | ⟨-, -, -, opened⟩
        · cases same
        · exact .inr length
        · refine .inl fun missing => ?_
          cases missing.symm.trans opened
      · intro opens
        by_cases empty : buf.size = 0
        · exact ⟨[], empty, .inr (.inl ⟨rfl, rfl⟩)⟩
        · obtain ⟨content, opened⟩ := Option.ne_none_iff_exists'.mp ((opens rfl).resolve_right empty)
          exact ⟨content, (unchanged content opened).symm, .inr (.inr ⟨rfl, rfl, rfl, opened⟩)⟩

/-- The encoding that is named is the one that was wanted. -/
theorem wanted_of_body {encoding : ContentEncoding}
    (used : (server.body values path.1 buf).map Prod.fst = some encoding) :
    server.wanted values path.1 buf = some encoding := by
  obtain ⟨⟨also, written⟩, made, rfl⟩ := Option.map_eq_some_iff.mp used
  obtain ⟨first, wants, rest⟩ := Option.bind_eq_some_iff.mp made
  obtain ⟨content, -, done⟩ := Option.bind_eq_some_iff.mp rest
  rw [compressed_encoding done]
  exact wants

/-- A response with a file is well formed when there is room for its head, its length is printed as it
is, and there is a body to send. -/
theorem wellFormed_respond200_iff (admitted : Admitted values) (types : server.dict.OnLines)
    (given : values Request.filePathName = some path) (known : server.stat path.1 = some buf)
    (found : getMimeType server.dict path.1 = some ext) (unchanged : server.Unchanged path.1 buf) :
    WellFormed server now values (respond200 server now values path.1 buf ext
        (server.body values path.1 buf) start.set) ↔
      sentLength server values path.1 buf < 2 ^ 31 ∧
        length200 server now values path.1 buf ext < strSize512 ∧
        (server.body values path.1 buf = none → server.content path.1 ≠ none ∨ buf.size = 0) := by
  rw [← respond200_carries_iff now values ext start unchanged (server.body values path.1 buf)]
  have length : (respond200 server now values path.1 buf ext (server.body values path.1 buf)
      start.set).bodyLen = sentLength server values path.1 buf := respond200_bodyLen _
  have code : (respond200 server now values path.1 buf ext (server.body values path.1 buf)
      start.set).respCode = 200 := rfl
  have header : (respond200 server now values path.1 buf ext (server.body values path.1 buf)
      start.set).header = (head200 (timeToHttpdate now) (timeToHttpdate buf.mtime)
        (expireDate now ext) (connection values) ((server.body values path.1 buf).map Prod.fst)
        ext.mimeType.1 (sentLength server values path.1 buf)).render := respond200_header _
  have plain := head200_plain admitted types found now buf.mtime
    ((server.body values path.1 buf).map Prod.fst) (sentLength server values path.1 buf)
  generalize respond200 server now values path.1 buf ext (server.body values path.1 buf)
    start.set = resp at length header code ⊢
  have size := length_head200 (timeToHttpdate now) (timeToHttpdate buf.mtime) (expireDate now ext)
    (connection values) ((server.body values path.1 buf).map Prod.fst) ext.mimeType.1
    (sentLength server values path.1 buf)
  rw [Option.map_map] at size
  constructor
  · rintro ⟨fits, status, body, head, -, carried, plain', shape, -, belongs⟩
    have same := plain'.render_inj plain (shape.symm.trans header)
    subst same
    obtain ⟨field, part, member⟩ : ∃ field : List UInt8 × List UInt8,
        field = (ascii "Content-Length", Decimal.format (sentLength server values path.1 buf)) ∧
          field ∈ (head200 (timeToHttpdate now) (timeToHttpdate buf.mtime) (expireDate now ext)
            (connection values) ((server.body values path.1 buf).map Prod.fst) ext.mimeType.1
            (sentLength server values path.1 buf)).fields :=
      ⟨_, rfl, mem_head200.mpr (.inr (.inr (.inr (.inr (.inr (.inr (.inr rfl)))))))⟩
    have printed := contentLength_eq (belongs field member) (congrArg Prod.fst part)
    rw [congrArg Prod.snd part] at printed
    dsimp only at printed
    rw [← carried.1, length] at printed
    refine ⟨Decimal.format_eq_ofNat_iff.mp printed, ?_, body, carried⟩
    rw [header, size, printed] at fits
    exact fits
  · rintro ⟨few, fits, body, carried⟩
    have printed := Decimal.format_of_lt few
    rw [printed] at size
    refine ⟨?_, .status200, body, _, code, carried, plain, header, rfl, ?_⟩
    · rw [header, size]
      exact fits
    · intro field member
      rcases mem_head200.mp member with same | same | same | ⟨date, set, same⟩ | same |
        ⟨used, named, same⟩ | same | same
      · exact belongs_part same .date
      · exact belongs_part same .server
      · exact belongs_part same (.lastModified given known)
      · exact belongs_part same (belongs_expires given found set)
      · exact belongs_part same .connection
      · exact belongs_part same (.contentEncoding given known (wanted_of_body named))
      · exact belongs_part same (.contentType rfl given found)
      · rw [printed, ← length, carried.1] at same
        exact belongs_part same .contentLength

/-- A response to a client that has the file is well formed when there is room for its head. -/
theorem wellFormed_304_iff (admitted : Admitted values)
    (given : values Request.filePathName = some path)
    (found : getMimeType server.dict path.1 = some ext) (resp : HttpResp)
    (header : resp.header = print304 (timeToHttpdate now) (expireDate now ext) (connection values))
    (code : resp.respCode = 304) (carried : Carries true resp []) :
    WellFormed server now values resp ↔ length304 now values ext < strSize512 := by
  rw [print304_eq] at header
  have size := length_head304 (timeToHttpdate now) (expireDate now ext) (connection values)
  constructor
  · rintro ⟨fits, -⟩
    rw [header, size] at fits
    exact fits
  · intro fits
    refine ⟨?_, .status304, [], _, code, carried, head304_plain admitted now ext, header, rfl, ?_⟩
    · rw [header, size]
      exact fits
    · intro field member
      rcases mem_head304.mp member with same | same | ⟨date, set, same⟩ | same
      · exact belongs_part same .date
      · exact belongs_part same .server
      · exact belongs_part same (belongs_expires given found set)
      · exact belongs_part same .connection

/-- A phrase begins with a digit, and a date does not. -/
theorem phrase_ne_date (status : RespStatus) (time : Int) (first second : List UInt8) :
    status.phrase ++ first ≠ timeToHttpdate time ++ second := by
  obtain ⟨c, rest, date, letter⟩ := Calendar.head_strftime (Calendar.gmtime_valid time)
  have digit : (status.phrase.head?.any fun d => decide (d < 65)) = true := by
    cases status <;> decide +kernel
  rw [timeToHttpdate, date]
  cases phrase : status.phrase with
  | nil =>
      rw [phrase] at digit
      cases digit
  | cons d text =>
      rw [phrase] at digit
      intro same
      have below : d < 65 := of_decide_eq_true digit
      rw [(List.cons.inj same).1] at below
      exact absurd letter (UInt8.not_le.mpr below)

/-- The responses of the error responders are not well formed: a date stands where the phrase is to. -/
theorem not_wellFormed_err (status : RespStatus) :
    ¬ WellFormed server now values (httpRespErr now values status start) := by
  rintro ⟨-, code, body, head, -, -, -, shape, phrase, -⟩
  have header : (httpRespErr now values status start).header =
      printErr (timeToHttpdate now) status.phrase (connection values)
        (printBody status.phrase status.entry.2.2).length := rfl
  rw [header, printErr, HttpHead.render] at shape
  simp only [List.append_assoc] at shape
  have behind := List.append_cancel_left shape
  rw [phrase] at behind
  exact phrase_ne_date code now _ _ behind.symm

/-! ### The worker -/

/-- The response to a request is well formed just when it is a file or a 304, its head fits into the
buffer, and for a file the length of the body is printed as it is, the file is read and it opens. -/
theorem wellFormed_iff (contract : server.zlib.Contract) (admitted : Admitted values)
    (types : server.dict.OnLines)
    (unchanged : ∀ path buf, server.stat path = some buf → server.Unchanged path buf) :
    (∃ fuel resp, staticFileProcess server fuel now values start.set = some resp ∧
        WellFormed server now values resp) ↔ Formed server now values := by
  have missing : (∀ fuel, staticFileProcess server fuel now values start.set =
      some (httpResp404 now values start.set)) → ¬ ∃ fuel resp,
        staticFileProcess server fuel now values start.set = some resp ∧
          WellFormed server now values resp := by
    rintro answer ⟨fuel, resp, back, right⟩
    rw [answer fuel] at back
    cases back
    exact not_wellFormed_err .status404 right
  cases given : values Request.filePathName with
  | none =>
      refine iff_of_false (missing fun fuel => ?_) ?_
      · rw [staticFileProcess, given]
        rfl
      · rintro ⟨path, buf, ext, also, -⟩
        cases given.symm.trans also
  | some path =>
      cases known : server.stat path.1 with
      | none =>
          refine iff_of_false (missing fun fuel => ?_) ?_
          · rw [staticFileProcess, given, Option.map_some, getRespCode]
            dsimp only
            rw [known]
          · rintro ⟨other, buf, ext, also, there, -⟩
            rw [← Option.some.inj (given.symm.trans also)] at there
            cases known.symm.trans there
      | some buf =>
          have same := unchanged path.1 buf known
          unfold staticFileProcess Formed
          rw [given, Option.map_some]
          dsimp only
          generalize (values (ascii "HTTP_IF_MODIFIED_SINCE")).map (fun text => text.1) = modify
          have formed : (∃ (other : Text) (buf : Stat) (ext : StaticFile), some path = some other ∧
                server.stat other.1 = some buf ∧ getMimeType server.dict other.1 = some ext ∧
                Fitting server now values other.1 buf ext (getRespCode server.timezone
                  server.memory server.stat (some other.1) modify)) ↔
              ∃ ext, getMimeType server.dict path.1 = some ext ∧
                Fitting server now values path.1 buf ext (getRespCode server.timezone
                  server.memory server.stat (some path.1) modify) := by
            constructor
            · rintro ⟨other, also, ext, given', known', rest⟩
              cases given'
              cases known.symm.trans known'
              exact ⟨ext, rest⟩
            · rintro ⟨ext, rest⟩
              exact ⟨path, buf, ext, rfl, known, rest⟩
          rw [formed]
          generalize getRespCode server.timezone server.memory server.stat (some path.1) modify =
            status
          cases status with
          | status200 =>
              simp only [Option.bind_some, known]
              rw [httpResp200_iff contract same]
              constructor
              · rintro ⟨ext, found, reads, right⟩
                exact ⟨ext, found, reads, (wellFormed_respond200_iff admitted types given known found
                  same).mp right⟩
              · rintro ⟨ext, found, reads, right⟩
                exact ⟨ext, found, reads, (wellFormed_respond200_iff admitted types given known found
                  same).mpr right⟩
          | status304 =>
              simp only [Option.bind_some, httpResp304, Option.map_eq_some_iff]
              constructor
              · rintro ⟨-, resp, ⟨ext, found, rfl⟩, right⟩
                exact ⟨ext, found, (wellFormed_304_iff admitted given found _ rfl rfl
                  ⟨rfl, .inr (.inl ⟨rfl, rfl⟩)⟩).mp right⟩
              · rintro ⟨ext, found, right⟩
                exact ⟨0, _, ⟨ext, found, rfl⟩, (wellFormed_304_iff admitted given found _ rfl rfl
                  ⟨rfl, .inr (.inl ⟨rfl, rfl⟩)⟩).mpr right⟩
          | status403 =>
              refine iff_of_false ?_ fun right => right.choose_spec.2
              rintro ⟨fuel, resp, back, right⟩
              rw [← Option.some.inj back] at right
              exact not_wellFormed_err .status403 right
          | status404 =>
              refine iff_of_false ?_ fun right => right.choose_spec.2
              rintro ⟨fuel, resp, back, right⟩
              rw [← Option.some.inj back] at right
              exact not_wellFormed_err .status404 right

theorem wellFormed_sample :
    (∃ fuel resp, staticFileProcess shortServer fuel 0 gzipValues HttpResp.new.set = some resp ∧
        WellFormed shortServer 0 gzipValues resp) ↔ Formed shortServer 0 gzipValues := by
  refine wellFormed_iff Zlib.storing_contract gzipValues_admitted shortServer_types ?_
  intro path buf known content opened
  rw [← Option.some.inj known, ← Option.some.inj opened]
  decide +kernel

/-- A request without a file is answered with a date where `404 Not Found` is to stand. -/
theorem not_wellFormed :
    ¬ ∃ fuel resp, staticFileProcess shortServer fuel 0 gzipValues HttpResp.new.set = some resp ∧
        WellFormed shortServer 0 gzipValues resp := by
  have given : gzipValues Request.filePathName = none := by decide +kernel
  rintro ⟨fuel, resp, back, right⟩
  rw [staticFileProcess, given] at back
  rw [← Option.some.inj back] at right
  exact not_wellFormed_err .status404 right

end StaticServer
