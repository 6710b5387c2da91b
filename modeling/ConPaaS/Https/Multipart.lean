import ConPaaS.Lib.MimeText

namespace ConPaaS

open Mime

/-- A file to be uploaded: its field, its name and its content. -/
structure UploadFile where
  name : Bytes
  filename : Bytes
  content : Bytes
  deriving DecidableEq, Repr

/-- `mimetypes.guess_type`. A type can be put into a header. -/
structure MimeTypes where
  guessType : Bytes → Option Bytes
  oneLine : ∀ filename type, guessType filename = some type → OneLine type

namespace HttpsClient

def boundary : Bytes := "----------_BoUnDaRy_StRiNg_$".toList

def dashBoundary : Bytes := "--".toList ++ boundary

/-- What is before the name of a field. -/
def nameField : Bytes := "Content-Disposition: form-data; name=\"".toList

/-- What is before the name of a file. -/
def filenameField : Bytes := "; filename=\"".toList

/-- `_get_content_type`. -/
def getContentType (types : MimeTypes) (filename : Bytes) : Bytes :=
  (types.guessType filename).getD "application/octet-stream".toList

/-- The strings for a parameter. -/
def paramStrings (param : Bytes × Bytes) : List Bytes :=
  [dashBoundary, nameField ++ param.1 ++ ['"'], [], param.2]

/-- The strings for a file. -/
def fileStrings (types : MimeTypes) (file : UploadFile) : List Bytes :=
  [dashBoundary, nameField ++ file.name ++ ['"'] ++ filenameField ++ file.filename ++ ['"'],
    "Content-Type: ".toList ++ getContentType types file.filename, [], file.content]

def isAscii (text : Bytes) : Bool := text.all fun c => c.toNat < 128

/-- `_encode_multipart_formdata`, for the parameters in the order of the
dictionary. The name of a file has to be ASCII. -/
def encodeMultipartFormdata (types : MimeTypes) (params : List (Bytes × Bytes)) (files : List UploadFile) :
    Except String (Bytes × Bytes) :=
  if files.all fun file => isAscii file.filename then
    .ok ("multipart/form-data; boundary=".toList ++ boundary,
      crlf.intercalate (params.flatMap paramStrings ++ files.flatMap (fileStrings types) ++ [dashBoundary ++ "--".toList, []]))
  else .error "UnicodeEncodeError"

/-- What a receiver of the parameters and files has to find. -/
def sentParts (params : List (Bytes × Bytes)) (files : List UploadFile) : List BodyPart :=
  params.map (fun param => ⟨some param.1, none, param.2⟩) ++ files.map fun file => ⟨some file.name, some file.filename, file.content⟩

/-- A receiver finds the parameters and files that were sent. -/
def Recovered (types : MimeTypes) (params : List (Bytes × Bytes)) (files : List UploadFile) : Prop :=
  match encodeMultipartFormdata types params files with
  | .ok (contentType, body) => readForm contentType body = sentParts params files
  | .error _ => False

/-- `https_post` adds the id of a service to the parameters. -/
def withServiceId (params : List (Bytes × Bytes)) : List (Bytes × Bytes) :=
  if params.any fun param => param.1 = "service_id".toList then params else params ++ [("service_id".toList, "0".toList)]

/-- A parameter as the server hands it on. -/
inductive UploadValue
  | text (value : Bytes)
  | file (filename content : Bytes)
  deriving DecidableEq, Repr

/-- `_parse_upload_params`, the value of one key. Of repeated parameters the last
one counts. -/
def parseUploadParams (parts : List BodyPart) (name : Bytes) : Option UploadValue :=
  (parts.filter fun part => part.name = some name).getLast?.map fun part =>
    match part.filename with
    | none => .text part.content
    | some filename => .file filename part.content

/-- Whether a line of a part does not begin with the boundary. -/
def within (line : Bytes) : Bool := !dashBoundary.isPrefixOf line

/-- No line of a content begins with the boundary. -/
def Undelimited (content : Bytes) : Prop := ∀ line ∈ lines content, within line = true

/-- The lines of a part after the boundary: a first header, other headers and
the content. -/
def partLines (header : Bytes) (others : List Bytes) (content : Bytes) : List Bytes :=
  lines header ++ (others ++ [] :: lines content)

/-- The parameters of the first header of a part. -/
def given (header : Bytes) : List (Bytes × Bytes) := parameters .skip ((unfolded (lines header)).drop dispositionField.length)

section BodyPart

variable {name filename content : Bytes} {others : List Bytes}

theorem within_goesOn (line : Bytes) (goes : goesOn line = true) : within line = true := by
  unfold goesOn at goes
  split at goes
  · rfl
  · rfl
  · cases goes

theorem lines_nameField (text : Bytes) :
    ∃ line later, lines text = line :: later ∧ lines (nameField ++ text) = (nameField ++ line) :: later := by
  obtain ⟨line, later, split⟩ := List.exists_cons_of_ne_nil (lines_ne_nil text)
  exact ⟨line, later, split, lines_append rfl split fun cr => absurd cr (by decide)⟩

/-- Other headers are not taken for the first one, nor for a boundary. -/
def Headers (others : List Bytes) : Prop := ∀ line ∈ others, line ≠ [] ∧ within line = true ∧ goesOn line = false

theorem given_name (text : Bytes) :
    given (nameField ++ text) = parameters (.quoted "name".toList []) (unfolded (lines text)) := by
  obtain ⟨line, later, split, whole⟩ := lines_nameField text
  rw [given, whole, unfolded_append, split]
  rfl

/-- What a receiver reads of a part is what its first header says. -/
theorem readPart_given (headers : Headers others) (text : Bytes) :
    parameters .skip (disposition (((partLines (nameField ++ text) others content).takeWhile within).takeWhile fun line =>
      !line.isEmpty)) = given (nameField ++ text) := by
  obtain ⟨line, later, _, whole⟩ := lines_nameField text
  have next : (others ++ [] :: lines content).takeWhile goesOn = [] := by
    cases others with
    | nil => rfl
    | cons other more => exact List.takeWhile_cons_of_neg (by simp [(headers other List.mem_cons_self).2.2])
  rw [partLines, given, whole, disposition_part rfl rfl within_goesOn next]

theorem name_iff (more : Bytes) : (given (nameField ++ (name ++ '"' :: more))).lookup "name".toList = some name ↔ Quotable name := by
  rw [given_name, lookup_quoted]

/-- What is left of a header after the name. -/
theorem given_quotable (quotable : Quotable name) (more : Bytes) :
    given (nameField ++ (name ++ '"' :: more)) = ("name".toList, name) :: parameters .skip (unfolded (lines more)) := by
  rw [given_name, parameters_quoted, unfolded_quotable quotable.oneLine, quotedString_quotable quotable.quote quotable.backslash]

theorem no_filename (quotable : Quotable name) : (given (nameField ++ (name ++ ['"']))).lookup "filename".toList = none := by
  rw [given_quotable quotable]
  rfl

theorem filename_iff (quotable : Quotable name) :
    (given (nameField ++ (name ++ '"' :: (filenameField ++ (filename ++ ['"']))))).lookup "filename".toList = some filename ↔
      Quotable filename := by
  obtain ⟨line, later, split⟩ := List.exists_cons_of_ne_nil (lines_ne_nil (filename ++ ['"']))
  have whole : lines (filenameField ++ (filename ++ ['"'])) = (filenameField ++ line) :: later :=
    lines_append rfl split fun cr => absurd cr (by decide)
  have reads : parameters .skip (filenameField ++ unfolded (line :: later)) =
      parameters (.quoted "filename".toList []) (unfolded (line :: later)) := rfl
  rw [given_quotable quotable, whole, unfolded_append, reads, ← split, ← lookup_quoted "filename".toList filename []]
  rfl

/-- The content of a part is what is left up to the first boundary. -/
theorem readPart_content {header : Bytes} (one : OneLine header) (filled : header ≠ []) (inside : within header = true)
    (headers : Headers others) : (readPart ((partLines header others content).takeWhile within)).content =
      crlf.intercalate ((lines content).takeWhile within) := by
  have kept : ∀ line ∈ header :: others, line ≠ [] ∧ within line = true := by
    intro line member
    rcases List.mem_cons.mp member with rfl | member
    · exact ⟨filled, inside⟩
    · exact ⟨(headers line member).1, (headers line member).2.1⟩
  have start : partLines header others content = (header :: others) ++ [] :: lines content := by
    rw [partLines, one]
    rfl
  have stops : ([] :: lines content).takeWhile within = [] :: (lines content).takeWhile within := rfl
  have ends : (header :: others ++ [] :: (lines content).takeWhile within).dropWhile (fun line => !line.isEmpty) =
      [] :: (lines content).takeWhile within := by
    rw [List.dropWhile_append_of_pos]
    · rfl
    · intro line member
      simpa using (kept line member).1
  rw [start, List.takeWhile_append_of_pos fun line member => (kept line member).2, stops]
  simp only [readPart, ends, List.tail_cons]

theorem content_iff (content : Bytes) : crlf.intercalate ((lines content).takeWhile within) = content ↔ Undelimited content :=
  content_eq_iff rfl content

theorem contentType_headers (types : MimeTypes) (filename : Bytes) :
    Headers ["Content-Type: ".toList ++ getContentType types filename] := by
  intro line member
  cases List.mem_singleton.mp member
  exact ⟨nofun, rfl, rfl⟩

theorem contentType_oneLine (types : MimeTypes) (filename : Bytes) :
    OneLine ("Content-Type: ".toList ++ getContentType types filename) := by
  refine oneLine_append rfl ?_ fun cr => absurd cr (by decide)
  unfold getContentType
  cases guess : types.guessType filename with
  | none => rfl
  | some type => exact types.oneLine filename type guess

theorem quotable_oneLine {more : Bytes} (quotable : Quotable name) (one : OneLine more) :
    OneLine (nameField ++ (name ++ '"' :: more)) := by
  refine oneLine_append rfl (oneLine_append quotable.oneLine ?_ fun _ => by simp) fun cr => absurd cr (by decide)
  exact oneLine_cons.mpr ⟨one, fun cr => absurd cr (by decide)⟩

/-- The lines of the strings of a parameter. -/
theorem lines_param (param : Bytes × Bytes) : (paramStrings param).flatMap lines =
    dashBoundary :: partLines (nameField ++ (param.1 ++ ['"'])) [] param.2 := by
  have first : lines dashBoundary = [dashBoundary] := rfl
  simp only [paramStrings, List.flatMap_cons, List.flatMap_nil, first, partLines, List.append_assoc, lines, List.append_nil,
    List.singleton_append, List.nil_append]

theorem lines_file (types : MimeTypes) (file : UploadFile) : (fileStrings types file).flatMap lines =
    dashBoundary :: partLines (nameField ++ (file.name ++ '"' :: (filenameField ++ (file.filename ++ ['"']))))
      ["Content-Type: ".toList ++ getContentType types file.filename] file.content := by
  have first : lines dashBoundary = [dashBoundary] := rfl
  have type : lines ("Content-Type: ".toList ++ getContentType types file.filename) = _ := contentType_oneLine types file.filename
  simp only [fileStrings, List.flatMap_cons, List.flatMap_nil, first, type, partLines, List.append_assoc, lines, List.append_nil,
    List.cons_append, List.nil_append]

theorem readPart_iff (headers : Headers others) (text name : Bytes) (filename : Option Bytes) (content value : Bytes) :
    readPart ((partLines (nameField ++ text) others content).takeWhile within) = ⟨some name, filename, value⟩ ↔
      (given (nameField ++ text)).lookup "name".toList = some name ∧ (given (nameField ++ text)).lookup "filename".toList = filename ∧
        (readPart ((partLines (nameField ++ text) others content).takeWhile within)).content = value := by
  rw [readPart, readPart_given headers, BodyPart.mk.injEq]

/-- A receiver finds a parameter. -/
theorem param_iff (param : Bytes × Bytes) :
    readPart ((partLines (nameField ++ (param.1 ++ ['"'])) [] param.2).takeWhile within) = ⟨some param.1, none, param.2⟩ ↔
      Quotable param.1 ∧ Undelimited param.2 := by
  have headers : Headers [] := fun _ member => by cases member
  rw [readPart_iff headers, name_iff]
  refine and_congr_right fun quotable => ?_
  have one : OneLine (nameField ++ (param.1 ++ ['"'])) := quotable_oneLine quotable oneLine_nil
  rw [no_filename quotable, readPart_content one nofun rfl headers, content_iff]
  exact and_iff_right rfl

theorem filename_oneLine (quotable : Quotable filename) : OneLine (filenameField ++ (filename ++ ['"'])) :=
  oneLine_append rfl (oneLine_append quotable.oneLine rfl fun _ => by simp) fun cr => absurd cr (by decide)

/-- A receiver finds a file. -/
theorem file_iff (types : MimeTypes) (file : UploadFile) :
    readPart ((partLines (nameField ++ (file.name ++ '"' :: (filenameField ++ (file.filename ++ ['"']))))
      ["Content-Type: ".toList ++ getContentType types file.filename] file.content).takeWhile within) =
        ⟨some file.name, some file.filename, file.content⟩ ↔
      Quotable file.name ∧ Quotable file.filename ∧ Undelimited file.content := by
  have headers := contentType_headers types file.filename
  rw [readPart_iff headers, name_iff]
  refine and_congr_right fun quotable => ?_
  rw [filename_iff quotable]
  refine and_congr_right fun quotable' => ?_
  rw [readPart_content (quotable_oneLine quotable (filename_oneLine quotable')) nofun rfl headers, content_iff]

/-- A part that is found has no boundary in it. -/
theorem partLines_within {header : Bytes} (one : OneLine header) (inside : within header = true) (headers : Headers others)
    (undelimited : Undelimited content) : ∀ line ∈ partLines header others content, dashBoundary.isPrefixOf line = false := by
  intro line member
  have kept : within line = true := by
    rw [partLines, one] at member
    rcases List.mem_append.mp member with member | member
    · cases List.mem_singleton.mp member
      exact inside
    · rcases List.mem_append.mp member with member | member
      · exact (headers line member).2.1
      · rcases List.mem_cons.mp member with rfl | member
        · rfl
        · exact undelimited line member
  simpa [within] using kept

end BodyPart

/-- A parameter that a receiver finds: its name can be quoted, and no line of its
value begins with the boundary. -/
def ParamFine (param : Bytes × Bytes) : Prop := Quotable param.1 ∧ Undelimited param.2

/-- The same for a file and its names. -/
def FileFine (file : UploadFile) : Prop := Quotable file.name ∧ Quotable file.filename ∧ Undelimited file.content

theorem flatMap_ne_nil {α : Type} (strings : List α) (texts : List Bytes) (f : α → List Bytes) (some : texts ≠ []) :
    strings.flatMap f ++ texts ≠ [] := by
  simp [some]

/-- The lines of a message, a part for each parameter and file. -/
theorem lines_body (types : MimeTypes) (params : List (Bytes × Bytes)) (files : List UploadFile) :
    lines (crlf.intercalate (params.flatMap paramStrings ++ files.flatMap (fileStrings types) ++ [dashBoundary ++ "--".toList, []])) =
      params.flatMap (fun param => dashBoundary :: partLines (nameField ++ (param.1 ++ ['"'])) [] param.2) ++
        (files.flatMap (fun file => dashBoundary ::
            partLines (nameField ++ (file.name ++ '"' :: (filenameField ++ (file.filename ++ ['"']))))
              ["Content-Type: ".toList ++ getContentType types file.filename] file.content) ++
          [dashBoundary ++ ['-', '-'], []]) := by
  rw [lines_intercalate (by simp), List.flatMap_append, List.flatMap_append, List.flatMap_assoc, List.flatMap_assoc, List.append_assoc]
  simp only [lines_param, lines_file]
  rfl

theorem ParamFine.within {param : Bytes × Bytes} (fine : ParamFine param) :
    ∀ line ∈ partLines (nameField ++ (param.1 ++ ['"'])) [] param.2, dashBoundary.isPrefixOf line = false :=
  partLines_within (quotable_oneLine fine.1 oneLine_nil) rfl (fun _ member => by cases member) fine.2

theorem FileFine.within (types : MimeTypes) {file : UploadFile} (fine : FileFine file) :
    ∀ line ∈ partLines (nameField ++ (file.name ++ '"' :: (filenameField ++ (file.filename ++ ['"']))))
      ["Content-Type: ".toList ++ getContentType types file.filename] file.content, dashBoundary.isPrefixOf line = false :=
  partLines_within (quotable_oneLine fine.1 (filename_oneLine fine.2.1)) rfl (contentType_headers types file.filename) fine.2.2

theorem encoded_iff (types : MimeTypes) (params : List (Bytes × Bytes)) (files : List UploadFile) :
    Recovered types params files ↔ (∀ param ∈ params, ParamFine param) ∧
      ∀ file ∈ files, isAscii file.filename = true ∧ FileFine file := by
  have given : (parameters .skip ("multipart/form-data; boundary=".toList ++ boundary)).lookup "boundary".toList = some boundary := rfl
  have closing : readLines dashBoundary [dashBoundary ++ ['-', '-'], []] = [] := readLines_close [[]]
  have last : ∀ line ∈ [dashBoundary ++ ['-', '-'], []].head?, dashBoundary.isPrefixOf line = true := by
    intro line first
    cases first
    rfl
  unfold Recovered encodeMultipartFormdata
  split
  · rename_i contentType body encoded
    split at encoded
    · rename_i ascii
      cases encoded
      have names : ∀ file ∈ files, isAscii file.filename = true := List.all_eq_true.mp ascii
      have filesRead := readLines_items (file_iff types) (fun file fine => FileFine.within types fine) last files []
      rw [List.append_nil, and_iff_left closing] at filesRead
      have next : ∀ line ∈ (files.flatMap (fun file => dashBoundary ::
            partLines (nameField ++ (file.name ++ '"' :: (filenameField ++ (file.filename ++ ['"']))))
              ["Content-Type: ".toList ++ getContentType types file.filename] file.content) ++
          [dashBoundary ++ ['-', '-'], []]).head?, dashBoundary.isPrefixOf line = true := by
        cases files with
        | nil => exact last
        | cons file others =>
          intro line first
          cases first
          rfl
      have whole := readLines_items param_iff (fun param fine => ParamFine.within fine) next params
        (files.map fun file => ⟨some file.name, some file.filename, file.content⟩)
      have read : readForm ("multipart/form-data; boundary=".toList ++ boundary) (crlf.intercalate (params.flatMap paramStrings ++
          files.flatMap (fileStrings types) ++ [dashBoundary ++ "--".toList, []])) = _ :=
        congrArg (readLines dashBoundary) (lines_body types params files)
      rw [read, sentParts]
      refine whole.trans (and_congr_right fun _ => filesRead.trans ?_)
      exact forall₂_congr fun file member => (and_iff_right (names file member)).symm
    · cases encoded
  · rename_i text encoded
    split at encoded
    · cases encoded
    · rename_i other
      refine iff_of_false id fun fine => other (List.all_eq_true.mpr fun file member => (fine.2 file member).1)

theorem withServiceId_fine (params : List (Bytes × Bytes)) :
    (∀ param ∈ withServiceId params, ParamFine param) ↔ ∀ param ∈ params, ParamFine param := by
  unfold withServiceId
  split
  · exact Iff.rfl
  · have fine : ParamFine ("service_id".toList, "0".toList) :=
      ⟨⟨rfl, by decide, by decide⟩, fun line member => by cases List.mem_singleton.mp member; rfl⟩
    rw [List.forall_mem_append, List.forall_mem_singleton]
    exact and_iff_left fine

/-- A receiver finds what was posted when all names can be quoted, the names of
files are ASCII, and no line of a content begins with the boundary. -/
theorem recovered_iff (types : MimeTypes) (params : List (Bytes × Bytes)) (files : List UploadFile) :
    Recovered types (withServiceId params) files ↔ (∀ param ∈ params, ParamFine param) ∧
      ∀ file ∈ files, isAscii file.filename = true ∧ FileFine file := by
  rw [encoded_iff, withServiceId_fine]

/-- A value with the boundary at the beginning of a line ends there. -/
theorem boundary_not_recovered : ¬ ∀ (types : MimeTypes) (params : List (Bytes × Bytes)) (files : List UploadFile),
    Recovered types (withServiceId params) files := by
  intro claim
  have read : readForm _ _ = sentParts _ _ :=
    claim ⟨fun _ => none, nofun⟩ [("description".toList, "a\r\n------------_BoUnDaRy_StRiNg_$".toList)] []
  exact absurd read (by decide +kernel)

theorem filter_name {parts : List BodyPart} (distinct : (parts.map BodyPart.name).Nodup) {part : BodyPart} (member : part ∈ parts) :
    parts.filter (fun other => other.name = part.name) = [part] := by
  induction parts with
  | nil => cases member
  | cons first rest ih =>
    obtain ⟨apart, distinct⟩ := List.nodup_cons.mp distinct
    rcases List.mem_cons.mp member with rfl | member
    · have none : rest.filter (fun other => other.name = part.name) = [] :=
        List.filter_eq_nil_iff.mpr fun other inside same =>
          apart (of_decide_eq_true same ▸ List.mem_map_of_mem inside)
      rw [List.filter_cons_of_pos (by simp), none]
    · have other : first.name ≠ part.name := fun same => apart (same ▸ List.mem_map_of_mem member)
      rw [List.filter_cons_of_neg (by simpa using other), ih distinct member]

/-- Where no name is used twice the server has each parameter and file under its
name. -/
theorem parseUploadParams_sent {params : List (Bytes × Bytes)} {files : List UploadFile}
    (distinct : ((sentParts params files).map BodyPart.name).Nodup) :
    (∀ param ∈ params, parseUploadParams (sentParts params files) param.1 = some (.text param.2)) ∧
      ∀ file ∈ files, parseUploadParams (sentParts params files) file.name = some (.file file.filename file.content) := by
  constructor
  · intro param member
    have only := filter_name distinct (List.mem_append_left _ (List.mem_map_of_mem member))
    simp only [parseUploadParams, only]
    rfl
  · intro file member
    have only := filter_name distinct (List.mem_append_right _ (List.mem_map_of_mem member))
    simp only [parseUploadParams, only]
    rfl

end HttpsClient

end ConPaaS
