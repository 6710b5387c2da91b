import ConPaaS.Lib.JsonPlain
import ConPaaS.TaskFarm.ThreadHandler

namespace ConPaaS

open Json Lines

namespace ThreadHandler

/-- The part that counts among those of a name: the last. -/
def lastNamed (name : String) (parts : List BodyPart) : Option BodyPart :=
  (parts.filter fun part => nameOf part = some name.toList).getLast?

/-- The method a request asks for. -/
def requestedMethod (parts : List BodyPart) : List Char := ((lastNamed "method" parts).map BodyPart.content).getD []

def requestedLocation (parts : List BodyPart) : List Char := ((lastNamed "uriLocation" parts).map BodyPart.content).getD []

/-- The name of the file of a request. -/
def requestedFile (parts : List BodyPart) : List Char := ((lastNamed "botFile" parts).map botFileOf).getD []

/-- Some bytes are a document that calls a method with some parameters. -/
def Calls (charset : Charset) (content : List UInt8) (method : List Char) (params : List (List Char)) : Prop :=
  ∃ entries, loads (charset.decode content) = some (.obj entries) ∧ entries.lookup "method".toList = some (.str method) ∧
    entries.lookup "params".toList = some (.arr (params.map .str))

theorem lastNamed_append (name : String) (parts : List BodyPart) (part : BodyPart) :
    lastNamed name (parts ++ [part]) = if nameOf part = some name.toList then some part else lastNamed name parts := by
  unfold lastNamed
  rw [List.filter_append, List.getLast?_append]
  split
  · rename_i named
    simp [named]
  · rename_i other
    simp [other]

/-- A part takes the place of the one before with its name. -/
theorem readPart_some {saves : List Char → Bool} {parts : List BodyPart} {part : BodyPart} {map : JsonrpcMap}
    (read : readPart saves ⟨"2.0".toList, requestedMethod parts, requestedLocation parts, requestedFile parts, "1".toList⟩ part =
      some map) :
    map = ⟨"2.0".toList, requestedMethod (parts ++ [part]), requestedLocation (parts ++ [part]),
      requestedFile (parts ++ [part]), "1".toList⟩ := by
  have first : "method".toList ≠ "uriLocation".toList := by decide
  have second : "method".toList ≠ "botFile".toList := by decide
  have third : "uriLocation".toList ≠ "botFile".toList := by decide
  unfold readPart at read
  unfold requestedMethod requestedLocation requestedFile at read ⊢
  simp only [lastNamed_append]
  split at read
  · rename_i unnamed
    cases read
    simp only [unnamed, reduceCtorEq, if_false]
  · rename_i name named
    unfold handleBodyPart at read
    simp only [named, Option.some.injEq]
    split at read
    · rename_i kind
      cases read
      simp only [kind, first, second, if_true, if_false, Option.map_some, Option.getD_some]
    · rename_i method
      split at read
      · rename_i kind
        cases read
        simp only [kind, first.symm, third, if_true, if_false, Option.map_some, Option.getD_some]
      · rename_i location
        split at read
        · rename_i kind
          obtain ⟨-, same⟩ := Option.ite_none_right_eq_some.mp read
          cases same
          simp only [kind, second.symm, third.symm, if_true, if_false, Option.map_some, Option.getD_some]
        · rename_i file
          cases read
          simp only [method, location, file, if_false]

/-- The map after the parts are read. -/
theorem readParts_some {saves : List Char → Bool} {parts : List BodyPart} {map : JsonrpcMap}
    (read : readParts saves parts = some map) :
    map = ⟨"2.0".toList, requestedMethod parts, requestedLocation parts, requestedFile parts, "1".toList⟩ := by
  induction parts using List.reverseRecOn generalizing map with
  | nil =>
    cases read
    rfl
  | append_singleton parts part ih =>
    unfold readParts at read
    rw [List.foldlM_append] at read
    obtain ⟨before, earlier, read⟩ := Option.bind_eq_some_iff.mp read
    rw [List.foldlM_cons, ih earlier] at read
    obtain ⟨after, step, same⟩ := Option.bind_eq_some_iff.mp read
    cases same
    exact readPart_some step

variable {method location file : List Char} {entries : List (List Char × Value)}

/-- The document for a method with a location and the name of a file. -/
def document (method location file : List Char) : List Char :=
  createStringFromMap ⟨"2.0".toList, method, location, file, "1".toList⟩

/-- What follows the file name in a document. -/
def afterFile : List Char := "], ".toList ++ '"' :: ("id".toList ++ '"' :: ':' :: ['1', '}'])

def afterLocation (file : List Char) : List Char := ", ".toList ++ '"' :: (file ++ '"' :: afterFile)

def afterMethod (location file : List Char) : List Char :=
  ", ".toList ++ '"' :: ("params".toList ++ '"' :: ':' :: '[' :: '"' :: (location ++ '"' :: afterLocation file))

theorem document_eq (method location file : List Char) : document method location file =
    '{' :: '"' :: ("jsonrpc".toList ++ '"' :: ':' :: '"' :: ("2.0".toList ++ '"' :: (", ".toList ++
      '"' :: ("method".toList ++ '"' :: ':' :: '"' :: (method ++ '"' :: afterMethod location file))))) := by
  unfold document createStringFromMap afterMethod afterLocation afterFile
  simp only [List.append_assoc]
  rfl

theorem length_afterFile : afterFile.length = 10 := rfl

theorem length_afterLocation (file : List Char) : (afterLocation file).length = file.length + 14 := by
  have between : ", ".toList.length = 2 := rfl
  rw [afterLocation, List.length_append, List.length_cons, List.length_append, List.length_cons, between, length_afterFile]
  omega

theorem length_afterMethod (location file : List Char) :
    (afterMethod location file).length = location.length + file.length + 28 := by
  have between : ", ".toList.length = 2 := rfl
  have key : "params".toList.length = 6 := rfl
  simp only [afterMethod, List.length_append, List.length_cons, between, key, length_afterLocation]
  omega

/-- The entries that a call consists of at least. -/
theorem least_call (named : ("method".toList, Doc.str method) ∈ entries)
    (given : ("params".toList, Doc.arr [.str location, .str file]) ∈ entries) :
    method.length + location.length + file.length + 29 ≤ Doc.leastEntries entries := by
  have least := Doc.leastEntries_two (show "method".toList ≠ "params".toList by decide) named given
  have first : "method".toList.length = 6 := rfl
  have second : "params".toList.length = 6 := rfl
  simp only [Doc.least, Doc.leastItems, first, second] at least
  omega

/-- What follows the array of the parameters. -/
def afterParams : List Char := ", ".toList ++ '"' :: ("id".toList ++ '"' :: ':' :: ['1', '}'])

theorem skipSpace_blank (text : List Char) : skipSpace (' ' :: '"' :: text) = '"' :: text := rfl

theorem skipSpace_comma (text : List Char) : skipSpace (", ".toList ++ text) = ',' :: ' ' :: text := rfl

theorem mem_others {key first : List Char} {value own : Value} (apart : first ≠ key)
    (member : (key, value) ∈ (first, own) :: entries) : (key, value) ∈ entries :=
  (List.mem_cons.mp member).resolve_left fun same => apart (congrArg Prod.fst same).symm

/-- Parameters that are read as the strings they are made of. -/
theorem plain_of_items {fuel : Nat} {rest : List Char}
    (read : parseItems fuel ('"' :: (location ++ '"' :: afterLocation file)) = some ([.str location, .str file], rest)) :
    Plain location ∧ Plain file := by
  obtain ⟨_, _, left, others, value, same, more⟩ := parseItems_cases read
  cases same
  rcases more with none | ⟨more, next, second⟩
  · cases none
  obtain ⟨own, same, written⟩ := parseValue_string value
  cases same
  obtain ⟨plainLocation, rfl⟩ := parseString_whole (by decide) written
  refine ⟨plainLocation, ?_⟩
  rw [skipSpace_comma] at next
  obtain ⟨-, rfl⟩ := List.cons.inj next
  rw [skipSpace_blank] at second
  obtain ⟨_, _, left, others, value, same, -⟩ := parseItems_cases second
  cases same
  obtain ⟨own, same, written⟩ := parseValue_string value
  cases same
  exact (parseString_whole (by decide) written).1

/-- The entry of the parameters, when an entry with that key is as it is meant:
no other one has room behind it. -/
theorem plain_of_params {fuel : Nat} {rest : List Char}
    (read : parseEntries fuel ('"' :: ("params".toList ++ '"' :: ':' :: '[' :: '"' :: (location ++ '"' :: afterLocation file))) =
      some (entries, rest)) (given : ("params".toList, Doc.arr [.str location, .str file]) ∈ entries) :
    Plain location ∧ Plain file := by
  obtain ⟨fuel, _, left, others, value, rfl, more⟩ := parseEntries_cases (by decide) read
  rw [skipSpace_cons (by rfl)] at value
  cases fuel with
  | zero => cases value
  | succ fuel =>
    rw [parseValue_arr (by rfl) (by decide)] at value
    obtain ⟨⟨items, after⟩, list, same⟩ := Option.map_eq_some_iff.mp value
    cases same
    have here : items = [.str location, .str file] := by
      rcases List.mem_cons.mp given with same | later
      · cases same
        rfl
      rcases more with rfl | ⟨more, next, others⟩
      · cases later
      have least := Doc.leastEntries_mem later
      have room := (least_nested _).2.1 list
      have rest := (least_nested _).2.2 others
      have first := (skips_space left).length_le
      have second := (skips_space more).length_le
      have key : "params".toList.length = 6 := rfl
      rw [next, List.length_cons] at first
      rw [List.length_cons, List.length_append, List.length_cons, length_afterLocation] at room
      simp only [Doc.least, Doc.leastItems, key] at least
      omega
    subst here
    exact plain_of_items list

/-- A document that is read as a call of the strings it is made of is made of
plain strings. -/
theorem plain_of_document (read : loads (document method location file) = some (.obj entries))
    (named : entries.lookup "method".toList = some (.str method))
    (given : entries.lookup "params".toList = some (.arr [.str location, .str file])) :
    Plain method ∧ Plain location ∧ Plain file := by
  have solid : Json.isSpace '"' = false := rfl
  rw [document_eq, loads, skipSpace_cons (by rfl), parseValue_obj solid (by decide)] at read
  split at read
  · cases read
  rename_i value rest parsed
  obtain ⟨⟨all, end_⟩, parsed, same⟩ := Option.map_eq_some_iff.mp parsed
  cases same
  obtain ⟨-, same⟩ := Option.ite_none_right_eq_some.mp read
  cases same
  replace named := (dictOf_sublist all).subset (mem_of_lookup named)
  replace given := (dictOf_sublist all).subset (mem_of_lookup given)
  obtain ⟨_, _, left, others, version, rfl, more⟩ := parseEntries_cases (by decide) parsed
  replace named := mem_others (by decide) named
  replace given := mem_others (by decide) given
  rcases more with rfl | ⟨more, next, onward⟩
  · cases named
  rw [skipSpace_cons solid] at version
  obtain ⟨own, rfl, written⟩ := parseValue_string version
  obtain ⟨rfl, rfl⟩ := parseString_of_plain (by decide) written
  rw [skipSpace_comma] at next
  obtain ⟨-, rfl⟩ := List.cons.inj next
  rw [skipSpace_blank] at onward
  obtain ⟨_, _, left, others, value, rfl, more⟩ := parseEntries_cases (by decide) onward
  replace given := mem_others (by decide) given
  rcases more with rfl | ⟨more, next, params⟩
  · cases given
  rw [skipSpace_cons solid] at value
  obtain ⟨own, rfl, written⟩ := parseValue_string value
  have here : own = method := by
    by_contra other
    -- then the method and the parameters come in entries behind this one, for which there is no room
    have later : ("method".toList, Doc.str method) ∈ others :=
      (List.mem_cons.mp named).resolve_left fun same => other (by cases same; rfl)
    have least := least_call later given
    have room := (least_nested _).2.2 params
    have first := parseString_length written
    have second := (skips_space left).length_le
    have third := (skips_space more).length_le
    rw [next, List.length_cons] at second
    rw [List.length_append, List.length_cons, length_afterMethod] at first
    omega
  subst here
  obtain ⟨plainMethod, rfl⟩ := parseString_whole (by decide) written
  rw [skipSpace_comma] at next
  obtain ⟨-, rfl⟩ := List.cons.inj next
  rw [skipSpace_blank] at params
  exact ⟨plainMethod, plain_of_params params given⟩

theorem parseItems_document (plainLocation : Plain location) (plainFile : Plain file) (fuel : Nat) :
    parseItems (fuel + 3) ('"' :: (location ++ '"' :: afterLocation file)) = some ([.str location, .str file], afterParams) := by
  have second : parseItems (fuel + 2) ('"' :: (file ++ '"' :: afterFile)) = some ([.str file], afterParams) := by
    rw [parseItems, parseValue_plain plainFile]
    rfl
  rw [parseItems, parseValue_plain plainLocation]
  simp only [afterLocation, skipSpace_comma, skipSpace_blank, second, Option.map_some]

theorem parseEntries_document (plainMethod : Plain method) (plainLocation : Plain location) (plainFile : Plain file) (fuel : Nat) :
    parseEntries (fuel + 6) ('"' :: ("method".toList ++ '"' :: ':' :: '"' :: (method ++ '"' :: afterMethod location file))) =
      some ([("method".toList, .str method), ("params".toList, .arr [.str location, .str file]), ("id".toList, .int 1)], []) := by
  have id : parseEntries (fuel + 4) ('"' :: ("id".toList ++ '"' :: ':' :: ['1', '}'])) = some ([("id".toList, .int 1)], []) :=
    parseEntries_last (by decide) (by rfl) (by rfl)
  have value : parseValue (fuel + 4) (skipSpace ('[' :: '"' :: (location ++ '"' :: afterLocation file))) =
      some (.arr [.str location, .str file], afterParams) := by
    rw [skipSpace_cons (by rfl), parseValue_arr (by rfl) (by decide), parseItems_document plainLocation plainFile]
    rfl
  rw [parseEntries_next (by decide) (parseValue_plain plainMethod) (skipSpace_comma _), skipSpace_blank,
    parseEntries_next (by decide) value (skipSpace_comma _), skipSpace_blank, id]
  rfl

/-- A document of plain strings is read as it is meant. -/
theorem loads_document (plainMethod : Plain method) (plainLocation : Plain location) (plainFile : Plain file) :
    loads (document method location file) = some (.obj [("jsonrpc".toList, .str "2.0".toList), ("method".toList, .str method),
      ("params".toList, .arr [.str location, .str file]), ("id".toList, .int 1)]) := by
  obtain ⟨fuel, enough⟩ : ∃ fuel, (document method location file).length + 1 = fuel + 8 := by
    refine ⟨(document method location file).length - 7, ?_⟩
    have := length_afterMethod location file
    simp only [document_eq, List.length_cons, List.length_append] at *
    omega
  rw [loads, enough, document_eq, skipSpace_cons (by rfl), parseValue_obj (by rfl) (by decide),
    parseEntries_next (by decide) (parseValue_plain (by decide)) (skipSpace_comma _), skipSpace_blank,
    parseEntries_document plainMethod plainLocation plainFile]
  rfl

theorem newline_notMem_document (first : '\n' ∉ method) (second : '\n' ∉ location) (third : '\n' ∉ file) :
    '\n' ∉ document method location file := by
  simp [document_eq, afterMethod, afterLocation, afterFile, first, second, third]

/-- Where the strings stand in a document. -/
theorem document_split {text : List Char} (among : text ∈ [method, location, file]) :
    ∃ before after, document method location file = before ++ (text ++ after) ∧
      text.length + after.length ≤ method.length + location.length + file.length + 29 := by
  obtain ⟨before, whole⟩ : ∃ before, document method location file = before ++ (method ++ '"' :: afterMethod location file) := by
    refine ⟨'{' :: '"' :: ("jsonrpc".toList ++ '"' :: ':' :: '"' :: ("2.0".toList ++ '"' ::
      (", ".toList ++ '"' :: ("method".toList ++ '"' :: ':' :: ['"'])))), ?_⟩
    simp only [document_eq, List.cons_append, List.append_assoc, List.nil_append]
  rw [whole]
  simp only [List.mem_cons, List.not_mem_nil, or_false] at among
  rcases among with rfl | rfl | rfl
  · refine ⟨before, '"' :: afterMethod location file, rfl, ?_⟩
    rw [List.length_cons, length_afterMethod]
    omega
  · refine ⟨before ++ method ++ '"' :: (", ".toList ++ '"' :: ("params".toList ++ '"' :: ':' :: '[' :: ['"'])),
      '"' :: afterLocation file, ?_, ?_⟩
    · simp only [afterMethod, List.cons_append, List.append_assoc, List.nil_append]
    · rw [List.length_cons, length_afterLocation]
      omega
  · refine ⟨before ++ method ++ '"' :: (", ".toList ++ '"' :: ("params".toList ++ '"' :: ':' :: '[' :: '"' ::
      (location ++ '"' :: (", ".toList ++ ['"'])))), '"' :: afterFile, ?_, ?_⟩
    · simp only [afterMethod, afterLocation, List.cons_append, List.append_assoc, List.nil_append]
    · rw [List.length_cons, length_afterFile]
      omega

/-- A document reaches the server as a call of the strings it is made of exactly
when they are plain: one with a line break leaves no room for them after it. -/
theorem calls_document_iff {doc : List Char} (last : lastLine (document method location file) = doc) :
    (∃ entries, loads doc = some (.obj entries) ∧ entries.lookup "method".toList = some (.str method) ∧
      entries.lookup "params".toList = some (.arr [.str location, .str file])) ↔
    Plain method ∧ Plain location ∧ Plain file := by
  by_cases broken : ∃ text ∈ [method, location, file], '\n' ∈ text
  · obtain ⟨text, among, broken⟩ := broken
    constructor
    · rintro ⟨entries, read, named, given⟩
      obtain ⟨before, after, whole, room⟩ := document_split among
      have short := length_lastLine_lt before broken after
      rw [← whole, last] at short
      have least := least_loads read
      have call := least_call (mem_of_lookup named) (mem_of_lookup given)
      rw [Doc.least] at least
      omega
    · rintro ⟨first, second, third⟩
      simp only [List.mem_cons, List.not_mem_nil, or_false] at among
      rcases among with rfl | rfl | rfl
      · exact absurd broken first.newline_notMem
      · exact absurd broken second.newline_notMem
      · exact absurd broken third.newline_notMem
  · have whole (text : List Char) (among : text ∈ [method, location, file]) : '\n' ∉ text := fun inside => broken ⟨text, among, inside⟩
    rw [lastLine_eq_self (newline_notMem_document (whole _ (by simp)) (whole _ (by simp)) (whole _ (by simp)))] at last
    subst last
    constructor
    · rintro ⟨entries, read, named, given⟩
      exact plain_of_document read named given
    · rintro ⟨first, second, third⟩
      exact ⟨_, loads_document first second third, rfl, rfl⟩

/-- The server gets a call of the strings of the request exactly when they are
plain: nothing in them is escaped, and only what follows the last line break is
passed on. -/
theorem handleMime_calls_iff (charset : Charset) {saves : List Char → Bool} {parts : List BodyPart} {content : List UInt8}
    (handled : handleMime charset saves parts = some content) :
    Calls charset content (requestedMethod parts) [requestedLocation parts, requestedFile parts] ↔
      Plain (requestedMethod parts) ∧ Plain (requestedLocation parts) ∧ Plain (requestedFile parts) := by
  obtain ⟨map, read, rfl⟩ := Option.map_eq_some_iff.mp handled
  rw [readParts_some read]
  unfold Calls handleJsonRpc
  rw [charset.decode_getBytes, charset.decode_getBytes]
  exact calls_document_iff rfl

/-- A request for the sampling of a bag. -/
def samplingRequest : List BodyPart :=
  [⟨["form-data; name=\"method\"".toList], "start_sampling".toList, none⟩,
    ⟨["form-data; name=\"uriLocation\"".toList], "http://host/".toList, none⟩,
    ⟨["form-data; name=\"botFile\"".toList], [], some "tasks.bot".toList⟩]

theorem samplingRequest_read : readParts (fun _ => true) samplingRequest =
    some ⟨"2.0".toList, "start_sampling".toList, "http://host/".toList, "tasks.bot".toList, "1".toList⟩ := by
  decide

theorem samplingRequest_calls : ∃ content, handleMime Charset.utf8 (fun _ => true) samplingRequest = some content ∧
    Calls Charset.utf8 content "start_sampling".toList ["http://host/".toList, "tasks.bot".toList] := by
  have handled := congrArg (Option.map fun map => handleJsonRpc Charset.utf8 (Charset.utf8.getBytes (createStringFromMap map)))
    samplingRequest_read
  have strings := readParts_some samplingRequest_read
  injection strings with _ method location file
  refine ⟨_, handled, ?_⟩
  rw [method, location, file]
  exact (handleMime_calls_iff Charset.utf8 handled).mpr (by rw [← method, ← location, ← file]; decide)

/-- A request with a quotation mark in its location. -/
def quotedRequest : List BodyPart :=
  [⟨["form-data; name=\"method\"".toList], "get_log".toList, none⟩,
    ⟨["form-data; name=\"uriLocation\"".toList], "a\"b".toList, none⟩]

theorem quotedRequest_not_called :
    ¬ ∀ (charset : Charset) (saves : List Char → Bool) (parts : List BodyPart) (content : List UInt8),
      handleMime charset saves parts = some content →
        Calls charset content (requestedMethod parts) [requestedLocation parts, requestedFile parts] := by
  intro claim
  have read : readParts (fun _ => true) quotedRequest = some ⟨"2.0".toList, "get_log".toList, "a\"b".toList, [], "1".toList⟩ := by decide
  have handled := congrArg (Option.map fun map => handleJsonRpc Charset.utf8 (Charset.utf8.getBytes (createStringFromMap map))) read
  have calls := claim Charset.utf8 (fun _ => true) quotedRequest _ handled
  have strings := readParts_some read
  injection strings with _ method location file
  rw [← method, ← location, ← file] at calls
  unfold Calls handleJsonRpc at calls
  rw [Charset.decode_getBytes, Charset.decode_getBytes] at calls
  exact absurd ((calls_document_iff rfl).mp calls) (by decide)

end ThreadHandler

end ConPaaS
