import ConPaaS.Https.Rpc

namespace ConPaaS

open Json Python

theorem ascii_of_all {text : List Char} (all : (text.all fun c => decide (c.toNat < 0x80)) = true) : ∀ c ∈ text, c.toNat < 0x80 :=
  fun c member => of_decide_eq_true (List.all_eq_true.mp all c member)

theorem digit_apart {c : Char} (digit : c.isDigit = true) : isSpace c = false ∧ c ≠ '-' ∧ c ≠ '+' := by
  simp only [Char.isDigit, Bool.and_eq_true, decide_eq_true_eq, UInt32.le_iff_toNat_le] at digit
  have low : 48 ≤ c.toNat := digit.1
  have high : c.toNat ≤ 57 := digit.2
  refine ⟨?_, ?_, ?_⟩
  · simp only [isSpace, Bool.or_eq_false_iff, Bool.and_eq_false_iff, decide_eq_false_iff_not]
    omega
  · rintro rfl
    exact absurd low (by decide)
  · rintro rfl
    exact absurd low (by decide)

theorem foldl_digits (digits : List Char) (n : Nat) :
    digits.foldl (fun (number : Int) digit => 10 * number + (digit.toNat - 48 : Nat)) n = (Nat.ofDigitChars 10 digits n : Nat) := by
  induction digits generalizing n with
  | nil => rfl
  | cons digit rest ih =>
    rw [List.foldl_cons, Nat.ofDigitChars_cons, ← ih]
    push_cast
    rfl

/-- `int` of the digits of a number. -/
theorem pythonInt_toDigits (n : Nat) : pythonInt (String.ofList (Nat.toDigits 10 n)) = some (n : Int) := by
  have digit : ∀ c ∈ Nat.toDigits 10 n, c.isDigit = true := fun c => toDigits_digit n c
  obtain ⟨first, more, own, -⟩ := toDigits_cons n
  have solid (text : List Char) (digits : ∀ c ∈ text, c.isDigit = true) : text.dropWhile isSpace = text :=
    List.dropWhile_eq_self_iff.mpr fun filled => by
      simp [(digit_apart (digits _ (List.getElem_mem filled))).1]
  have read : readDigits (Nat.toDigits 10 n) = some (n : Int) := by
    have all : (Nat.toDigits 10 n).all Char.isDigit = true := List.all_eq_true.mpr digit
    have value : (Nat.toDigits 10 n).foldl (fun (number : Int) digit => 10 * number + (digit.toNat - 48 : Nat)) 0 = n :=
      (foldl_digits _ 0).trans (congrArg Nat.cast Nat.ofDigitChars_ten_toDigits)
    rw [readDigits, solid _ digit, if_pos ⟨Nat.toDigits_ne_nil, all⟩, value]
  unfold pythonInt
  rw [String.toList_ofList, solid _ digit, solid _ fun c member => digit c (List.mem_reverse.mp member), List.reverse_reverse]
  split
  · rename_i rest same
    exact absurd rfl (digit_apart (digit '-' (same ▸ List.mem_cons_self ..))).2.1
  · rename_i rest same
    exact absurd rfl (digit_apart (digit '+' (same ▸ List.mem_cons_self ..))).2.2
  · exact read

/-- A result that comes through JSON as it is. -/
def CallResult.Exact : CallResult → Prop
  | .json value | .error value => Python.Exact value
  | .file _ | .other | .raises _ => True

namespace RpcServer

variable {σ : Type} (server : RpcServer σ)

/-- What a client learns of a call. An error whose message counts as false is
taken for no error. -/
def outcome (serviceId : Nat) (name : String) (arguments : Arguments) : CallResult → Except ClientError Value
  | .json obj => .ok obj
  | .error message => if truthy server.floats message then .error (.remote message) else .error .malformed
  | .file (.ok content) => HttpsClient.checkResponse server.floats (some ⟨200, content⟩)
  | .file (.error trace) | .raises trace => .error (.remote (.str (server.errmsg serviceId name arguments trace)))
  | .other => .error .noReply

/-- A call of a registered function where the server runs. -/
def invoke (callbackType : HttpMethod) (serviceId : Nat) (name : String) (arguments : Arguments) (s : σ) :
    σ × Except ClientError Value :=
  if ConPaaS.dispatch (server.callbackDict s) callbackType (some serviceId) (some name) = .calls serviceId name then
    let (after, called) := server.call callbackType serviceId name arguments s
    (after, server.outcome serviceId name arguments called)
  else (s, .error (.code 404))

/-- A call by a client, who checks the response. -/
def remotely (request : HttpRequest) (s : σ) : σ × Except ClientError Value :=
  (server.exchange request s).map id (HttpsClient.checkResponse server.floats)

variable {server} {s : σ} {callbackType : HttpMethod} {serviceId : Nat} {name : String} {arguments : Arguments}
  {requestId : ParamValue} {own : Value} {called : CallResult}

/-- What is read of a reply that the server has written. -/
theorem checkResponse_obj {data : List (List Char × Value)} (exact : Exact (.obj data)) :
    HttpsClient.checkResponse server.floats (some ⟨200, dumps server.floats (.obj data)⟩) =
      match data.lookup "error".toList with
      | none => .error .malformed
      | some error =>
        if truthy server.floats error then .error (.remote error)
        else
          match data.lookup "result".toList with
          | some result => .ok result
          | none => .error .malformed := by
  rw [HttpsClient.checkResponse, if_neg (by simp), loadsBytes_dumps exact]
  rfl

theorem errmsg_ne_nil (trace : List Char) : server.errmsg serviceId name arguments trace ≠ [] :=
  List.append_ne_nil_of_left_ne_nil (List.append_ne_nil_of_right_ne_nil _ (by decide)) _

theorem checkResponse_errmsg {errmsg : List Char} (filled : errmsg ≠ []) :
    HttpsClient.checkResponse server.floats (some (server.sendErrmsg errmsg)) = .error (.remote (.str errmsg)) := by
  have exact : Exact (.obj [("error".toList, .str errmsg)]) := by
    refine exact_obj.mpr ⟨List.nodup_singleton _, fun entry member => ?_⟩
    cases List.mem_singleton.mp member
    exact exact_str errmsg
  have true : truthy server.floats (.str errmsg) = true := by
    simp [truthy, filled]
  rw [sendErrmsg, checkResponse_obj exact, List.lookup_cons_self]
  simp [true]

/-- A client reads what a call has come to. -/
theorem checkResponse_respond (dumped : requestId.dumped = some own) (readable : Exact own) (exact : called.Exact) :
    HttpsClient.checkResponse server.floats (server.respond serviceId name arguments requestId called) =
      server.outcome serviceId name arguments called := by
  cases called with
  | json obj =>
    let data := [("result".toList, obj), ("error".toList, .null), ("id".toList, own)]
    have distinct : (data.map Prod.fst).Nodup := (by decide : ["result".toList, "error".toList, "id".toList].Nodup)
    have whole : Exact (.obj (server.enumeration.entries Value data)) :=
      server.enumeration.exact distinct (by simpa [data] using ⟨exact, exact_null, readable⟩)
    have error : ("error".toList, .null) ∈ data := by simp [data]
    have result : ("result".toList, obj) ∈ data := by simp [data]
    simp only [respond, dumped]
    rw [checkResponse_obj whole, server.enumeration.lookup_some distinct error, server.enumeration.lookup_some distinct result]
    rfl
  | error message =>
    let data := [("error".toList, message), ("id".toList, own)]
    have distinct : (data.map Prod.fst).Nodup := (by decide : ["error".toList, "id".toList].Nodup)
    have whole : Exact (.obj (server.enumeration.entries Value data)) :=
      server.enumeration.exact distinct (by simpa [data] using ⟨exact, readable⟩)
    have error : ("error".toList, message) ∈ data := by simp [data]
    have result : "result".toList ∉ data.map Prod.fst := (by decide : "result".toList ∉ ["error".toList, "id".toList])
    simp only [respond, dumped]
    rw [checkResponse_obj whole, server.enumeration.lookup_some distinct error, server.enumeration.lookup_none result]
    rfl
  | file content =>
    cases content with
    | ok content => rfl
    | error trace => exact checkResponse_errmsg (errmsg_ne_nil trace)
  | other => rfl
  | raises trace => exact checkResponse_errmsg (errmsg_ne_nil trace)

theorem hashable_of_string {value : ParamValue} (text : value.string = some name) : value.hashable = true := by
  unfold ParamValue.hashable
  split
  · cases text
  · cases text
  · rfl

/-- What comes of an id and a method. -/
theorem dispatch_cases (callbacks : CallbackDict) (callbackType : HttpMethod) (serviceId : Nat) (name : String) :
    ConPaaS.dispatch callbacks callbackType (some serviceId) (some name) = .serviceNotFound ∨
      ConPaaS.dispatch callbacks callbackType (some serviceId) (some name) = .methodNotFound ∨
      ConPaaS.dispatch callbacks callbackType (some serviceId) (some name) = .calls serviceId name := by
  unfold ConPaaS.dispatch
  dsimp only
  split
  · exact Or.inl rfl
  · split
    · exact Or.inr (Or.inr rfl)
    · exact Or.inr (Or.inl rfl)

/-- A request that names a service and a function is a call of it. -/
theorem dispatch_invoke {params : RequestParams} {service method : ParamValue} (served : params.get "service_id" = .found service)
    (number : service.int server.floats = some (serviceId : Int)) (named : params.get "method" = .found method)
    (text : method.string = some name) (asked : params.requestId = some requestId) (dumped : requestId.dumped = some own)
    (readable : Exact own) (exact : (server.call callbackType serviceId name params.callbackParams s).2.Exact) :
    (server.dispatch callbackType params s).map id (HttpsClient.checkResponse server.floats) =
      server.invoke callbackType serviceId name params.callbackParams s := by
  have key : server.serviceId params = some (some (.ofNat serviceId)) := by
    rw [RpcServer.serviceId, served]
    exact congrArg (Option.map some) number
  unfold RpcServer.dispatch invoke
  simp only [key, named, Option.bind_some, text]
  rcases dispatch_cases (server.callbackDict s) callbackType serviceId name with comes | comes | comes
  · have refused : ¬ Dispatched.serviceNotFound = .calls serviceId name := fun same => by cases same
    simp only [comes, refused, if_false]
    rfl
  · have refused : ¬ Dispatched.methodNotFound = .calls serviceId name := fun same => by cases same
    simp only [comes, refused, if_false, hashable_of_string text, if_true]
    rfl
  · simp only [comes, if_true, asked]
    exact Prod.ext rfl (checkResponse_respond dumped readable exact)

section Handling

variable {request : HttpRequest} {contentType : List Char}

theorem handleOneRequest_post (path : request.path = ['/']) (command : request.command = "POST".toList)
    (given : request.contentType = some contentType) : server.handleOneRequest request s = server.handlePost contentType request s := by
  have parsed : QueryString.urlparse ['/'] = some (['/'], []) := by decide
  have apart : ¬ "POST".toList = "GET".toList := by decide
  simp only [handleOneRequest, path, parsed, given, command, apart, ne_eq, not_true_eq_false, if_false, if_true]

/-- A body of the length that its request gives. -/
theorem parseJsonrpcPostParams_of {value : Value} (length : request.contentLength = some (Nat.toDigits 10 request.body.length))
    (read : loadsBytes request.body = some value) : server.parseJsonrpcPostParams request = ([], some (.json value)) := by
  have digits : Nat.toDigits 10 request.body.length ≠ [] ∧ (Nat.toDigits 10 request.body.length).all Char.isDigit = true :=
    ⟨Nat.toDigits_ne_nil, List.all_eq_true.mpr (toDigits_digit _)⟩
  have nonnegative : ¬ (request.body.length : Int) < 0 := by omega
  simp only [parseJsonrpcPostParams, length, if_pos digits, pythonInt_toDigits, if_neg nonnegative, Int.toNat_natCast,
    List.take_length, read, Option.map_some]

theorem handleOneRequest_get {query : List Char} (whole : '#' ∉ query) (path : request.path = '/' :: '?' :: query)
    (command : request.command = "GET".toList) (given : request.contentType = some contentType) :
    server.handleOneRequest request s = server.handleGet contentType query s := by
  simp only [handleOneRequest, path, QueryString.urlparse_root whole, given, command, ne_eq, not_true_eq_false, if_false, if_true]

/-- Fields that a query can carry. -/
def Carried (fields : List (List Char × List Char)) : Prop :=
  (fields.map Prod.fst).Nodup ∧ ∀ field ∈ fields, QueryString.Bytes field.1 ∧ QueryString.Bytes field.2 ∧ field.2 ≠ []

theorem parseJsonrpcGetParams_of (enumeration : Enumeration) {fields : List (List Char × List Char)} (carried : Carried fields) :
    '#' ∉ QueryString.urlencode (enumeration.entries _ fields) ∧
      parseJsonrpcGetParams (QueryString.urlencode (enumeration.entries _ fields)) =
        readArguments (enumeration.entries _ fields) := by
  obtain ⟨distinct, each⟩ := carried
  have inside (field) (member : field ∈ enumeration.entries _ fields) := each field ((enumeration.perm _ fields).mem_iff.mp member)
  have bytes : ∀ field ∈ enumeration.entries _ fields, QueryString.Bytes field.1 ∧ QueryString.Bytes field.2 :=
    fun field member => ⟨(inside field member).1, (inside field member).2.1⟩
  have filled : ∀ field ∈ enumeration.entries _ fields, decide (field.2 ≠ []) = true :=
    fun field member => decide_eq_true (inside field member).2.2
  refine ⟨QueryString.notMem_urlencode bytes (by decide) (by decide) (by decide), ?_⟩
  rw [parseJsonrpcGetParams, QueryString.parseQsl_urlencode bytes, List.filter_eq_self.mpr filled,
    dictOf_distinct (enumeration.distinct distinct)]

end Handling

theorem requestId_found {params : RequestParams} {id : ParamValue} (other : ∀ fields, params ≠ .upload fields)
    (found : params.get "id" = .found id) : params.requestId = some id := by
  rw [RequestParams.requestId, found]
  exact other

section Jsonrpc

variable {enumeration : Enumeration} {method : List Char} {params : Value}

/-- What a function gets of the parameters a client gives. In the query of a
request there are none that count as false. -/
def received (floats : Floats) : HttpMethod → Value → Value
  | .get, params => if truthy floats params then params else .obj []
  | _, params => params

/-- The request in which a client calls a function. -/
def jsonrpcRequest (floats : Floats) (enumeration : Enumeration) (method : List Char) (serviceId : Nat) (params : Value) :
    HttpMethod → HttpRequest
  | .get => HttpsClient.jsonrpcGet floats enumeration ['/'] method serviceId (some params)
  | _ => HttpsClient.jsonrpcPost floats enumeration ['/'] method serviceId params

theorem remotely_post (plain : Exact params)
    (exact : (server.call .post serviceId (String.ofList method) (.json params) s).2.Exact) :
    server.remotely (HttpsClient.jsonrpcPost server.floats enumeration ['/'] method serviceId params) s =
      server.invoke .post serviceId (String.ofList method) (.json params) s := by
  let entries := [("service_id".toList, .int serviceId), ("method".toList, .str method), ("params".toList, params), ("id".toList, .str ['1'])]
  have distinct : (entries.map Prod.fst).Nodup :=
    (by decide : ["service_id".toList, "method".toList, "params".toList, "id".toList].Nodup)
  have whole : Exact (.obj (enumeration.entries Value entries)) :=
    enumeration.exact distinct (by simpa [entries] using ⟨exact_int _, exact_str _, plain, exact_str _⟩)
  let read : RequestParams := .json (.obj (enumeration.entries Value entries))
  have find (key : String) (value : Value) (member : (key.toList, value) ∈ entries) : read.get key = .found (.json value) := by
    simp only [read, RequestParams.get, enumeration.lookup_some distinct member]
  have own : read.requestId = some (.json (.str ['1'])) := by
    have id := find "id" (.str ['1']) (by simp [entries])
    exact requestId_found (by simp [read]) id
  have given : read.callbackParams = .json params := by
    have inside : ("params".toList, params) ∈ entries := by simp [entries]
    simp only [read, RequestParams.callbackParams]
    rw [enumeration.lookup_some distinct inside]
    rfl
  have sent : server.exchange (HttpsClient.jsonrpcPost server.floats enumeration ['/'] method serviceId params) s =
      server.dispatch .post read s := by
    have parsed : server.parseJsonrpcPostParams (HttpsClient.jsonrpcPost server.floats enumeration ['/'] method serviceId params) =
        ([], some read) := parseJsonrpcPostParams_of rfl (loadsBytes_dumps whole)
    rw [exchange, handleOneRequest_post rfl rfl rfl, handlePost, if_pos (by decide), parsed]
    exact Prod.ext rfl (by simp [dispatchRead, Option.head?_toList])
  rw [remotely, sent, dispatch_invoke (find "service_id" (.int serviceId) (by simp [entries])) rfl
    (find "method" (.str method) (by simp [entries])) rfl own rfl (exact_str _) (given ▸ exact), given]

/-- A request whose query names a service and a function. -/
theorem remotely_query {fields : List (List Char × List Char)} {request : HttpRequest} {arguments : Option Value}
    (carried : Carried fields) (service : ("service_id".toList, Nat.toDigits 10 serviceId) ∈ fields)
    (named : ("method".toList, method) ∈ fields) (id : ("id".toList, ['1']) ∈ fields)
    (path : request.path = '/' :: '?' :: QueryString.urlencode (enumeration.entries _ fields))
    (command : request.command = "GET".toList) (content : request.contentType = some "application/json".toList)
    (parsed : parseJsonrpcGetParams (QueryString.urlencode (enumeration.entries _ fields)) =
      some (.query (enumeration.entries _ fields) arguments))
    (exact : (server.call .get serviceId (String.ofList method) (.json (arguments.getD (.obj []))) s).2.Exact) :
    server.remotely request s = server.invoke .get serviceId (String.ofList method) (.json (arguments.getD (.obj []))) s := by
  let read : RequestParams := .query (enumeration.entries _ fields) arguments
  have find {key : String} {text : List Char} (member : (key.toList, text) ∈ fields) : read.get key = .found (.bytes text) := by
    simp only [read, RequestParams.get, enumeration.lookup_some carried.1 member]
  have sent : server.exchange request s = server.dispatch .get read s := by
    rw [exchange, handleOneRequest_get (parseJsonrpcGetParams_of enumeration carried).1 path command content, handleGet,
      if_pos (by decide), parsed]
    exact Prod.ext rfl (by simp [dispatchRead, Option.head?_toList, read])
  have own : (ParamValue.bytes ['1']).dumped = some (.str ['1']) :=
    congrArg (Option.map Doc.str) (utf8_ascii (ascii_of_all rfl : ∀ c ∈ ['1'], c.toNat < 0x80))
  rw [remotely, sent]
  exact dispatch_invoke (find service) (pythonInt_toDigits serviceId) (find named) rfl
    (requestId_found (by simp [read]) (find id)) own (exact_str ['1']) exact

theorem remotely_get (bytes : QueryString.Bytes method) (named : method ≠ []) (plain : Exact params)
    (exact : (server.call .get serviceId (String.ofList method) (.json (received server.floats .get params)) s).2.Exact) :
    server.remotely (HttpsClient.jsonrpcGet server.floats enumeration ['/'] method serviceId (some params)) s =
      server.invoke .get serviceId (String.ofList method) (.json (received server.floats .get params)) s := by
  let common := [("service_id".toList, Nat.toDigits 10 serviceId), ("method".toList, method), ("id".toList, ['1'])]
  have ascii {text : List Char} (small : ∀ c ∈ text, c.toNat < 0x80) := QueryString.bytes_of_ascii small
  have digits : QueryString.Bytes (Nat.toDigits 10 serviceId) := ascii fun c member => by
    have digit := toDigits_digit serviceId c member
    simp only [Char.isDigit, Bool.and_eq_true, decide_eq_true_eq, UInt32.le_iff_toNat_le] at digit
    exact Nat.lt_of_le_of_lt digit.2 (by decide)
  have carried {rest : List (List Char × List Char)} (distinct : ((common ++ rest).map Prod.fst).Nodup)
      (each : ∀ field ∈ rest, QueryString.Bytes field.1 ∧ QueryString.Bytes field.2 ∧ field.2 ≠ []) : Carried (common ++ rest) := by
    refine ⟨distinct, fun field member => (List.mem_append.mp member).elim (fun own => ?_) (each field)⟩
    simp only [common, List.mem_cons, List.not_mem_nil, or_false] at own
    rcases own with rfl | rfl | rfl
    · exact ⟨ascii (ascii_of_all rfl : ∀ c ∈ "service_id".toList, c.toNat < 0x80), digits, Nat.toDigits_ne_nil⟩
    · exact ⟨ascii (ascii_of_all rfl : ∀ c ∈ "method".toList, c.toNat < 0x80), bytes, named⟩
    · exact ⟨ascii (ascii_of_all rfl : ∀ c ∈ "id".toList, c.toNat < 0x80), ascii (ascii_of_all rfl), List.cons_ne_nil _ _⟩
  cases true : truthy server.floats params with
  | false =>
    have fields : Carried (common ++ []) :=
      carried (by decide : ["service_id".toList, "method".toList, "id".toList].Nodup) fun _ member => by cases member
    have parsed := (parseJsonrpcGetParams_of enumeration fields).2
    rw [readArguments, enumeration.lookup_none (by decide : "params".toList ∉ ["service_id".toList, "method".toList, "id".toList])] at parsed
    have left : (some params).filter (truthy server.floats) = none := by simp [Option.filter, true]
    have path : (HttpsClient.jsonrpcGet server.floats enumeration ['/'] method serviceId (some params)).path =
        '/' :: '?' :: QueryString.urlencode (enumeration.entries _ (common ++ [])) := by
      simp only [HttpsClient.jsonrpcGet, left]
      rfl
    have given : received server.floats .get params = .obj [] := by simp [received, true]
    rw [given] at exact ⊢
    exact remotely_query fields (by simp [common]) (by simp [common]) (by simp [common]) path rfl rfl parsed exact
  | true =>
    have text : QueryString.Bytes (dumps server.floats params) := ascii (dumps_ascii plain)
    have fields : Carried (common ++ [("params".toList, dumps server.floats params)]) :=
      carried (by decide : ["service_id".toList, "method".toList, "id".toList, "params".toList].Nodup) fun field member => by
        cases List.mem_singleton.mp member
        exact ⟨ascii (ascii_of_all rfl : ∀ c ∈ "params".toList, c.toNat < 0x80), text, dumps_ne_nil plain⟩
    have parsed := (parseJsonrpcGetParams_of enumeration fields).2
    have inside : ("params".toList, dumps server.floats params) ∈ common ++ [("params".toList, dumps server.floats params)] := by simp
    simp only [readArguments, enumeration.lookup_some fields.1 inside, loadsBytes_dumps plain, Option.map_some] at parsed
    have kept : (some params).filter (truthy server.floats) = some params := by simp [Option.filter, true]
    have path : (HttpsClient.jsonrpcGet server.floats enumeration ['/'] method serviceId (some params)).path =
        '/' :: '?' :: QueryString.urlencode (enumeration.entries _ (common ++ [("params".toList, dumps server.floats params)])) := by
      simp only [HttpsClient.jsonrpcGet, kept]
      rfl
    have given : received server.floats .get params = params := by simp [received, true]
    rw [given] at exact ⊢
    exact remotely_query fields (by simp [common]) (by simp [common]) (by simp [common]) path rfl rfl parsed exact

/-- A client that calls a function gets what the function returns, and learns of
errors and exceptions. Functions that are not registered are not called. -/
theorem jsonrpc_calls (jsonrpc : callbackType ≠ .upload) (ascii : ∀ c ∈ method, c.toNat < 0x80) (named : method ≠ [])
    (plain : Exact params) (exact : (server.call callbackType serviceId (String.ofList method)
      (.json (received server.floats callbackType params)) s).2.Exact) :
    server.remotely (jsonrpcRequest server.floats enumeration method serviceId params callbackType) s =
      server.invoke callbackType serviceId (String.ofList method) (.json (received server.floats callbackType params)) s := by
  cases callbackType with
  | get => exact remotely_get (QueryString.bytes_of_ascii ascii) named plain exact
  | post => exact remotely_post plain exact
  | upload => exact absurd rfl jsonrpc

/-- A manager that answers every call with the last id of a service. -/
def answering : RpcServer Server where
  floats := ⟨id, fun _ => false, fun _ => none⟩
  enumeration := ⟨fun _ list => list, fun _ => List.Perm.refl⟩
  callbackDict := Server.callbackDict
  call _ _ _ _ s := (s, .json (.int s.process.manager.serviceId))
  shown _ := []
  undumped _ := []
  errorPage _ := []

theorem answering_exact (callbackType : HttpMethod) (serviceId : Nat) (name : String) (arguments : Arguments) (s : Server) :
    (answering.call callbackType serviceId name arguments s).2.Exact := exact_int _

/-- A call by a client with parameters in JSON. -/
structure RpcCall where
  callbackType : HttpMethod
  serviceId : Nat
  method : List Char
  params : Value

/-- A call that can be sent as it is. -/
structure RpcCall.Sendable (call : RpcCall) : Prop where
  jsonrpc : call.callbackType ≠ .upload
  ascii : ∀ c ∈ call.method, c.toNat < 0x80
  named : call.method ≠ []
  plain : Exact call.params

/-- Calls one after the other, as the server handles them. -/
def inTurn (one : RpcCall → σ → σ × Except ClientError Value) : List RpcCall → σ → σ × List (Except ClientError Value)
  | [], s => (s, [])
  | call :: rest, s =>
    let (mid, outcome) := one call s
    let (after, outcomes) := inTurn one rest mid
    (after, outcome :: outcomes)

/-- However many clients call, in whatever order their requests come, the server
and the clients end up as if the functions were called where the server runs. -/
theorem calls_in_turn {calls : List RpcCall} (sendable : ∀ call ∈ calls, call.Sendable)
    (exact : ∀ callbackType serviceId name arguments s, (server.call callbackType serviceId name arguments s).2.Exact) :
    inTurn (fun call => server.remotely
        (jsonrpcRequest server.floats enumeration call.method call.serviceId call.params call.callbackType)) calls s =
      inTurn (fun call => server.invoke call.callbackType call.serviceId (String.ofList call.method)
        (.json (received server.floats call.callbackType call.params))) calls s := by
  induction calls generalizing s with
  | nil => rfl
  | cons call rest ih =>
    obtain ⟨⟨jsonrpc, ascii, named, plain⟩, later⟩ := List.forall_mem_cons.mp sendable
    simp only [inTurn, jsonrpc_calls jsonrpc ascii named plain (exact _ _ _ _ _), ih later]

theorem answered_in_turn : inTurn (fun call => answering.remotely
      (jsonrpcRequest answering.floats answering.enumeration call.method call.serviceId call.params call.callbackType))
      [⟨.get, 0, "check_process".toList, .null⟩, ⟨.post, 0, "add_node".toList, .obj [("count".toList, .int 1)]⟩] Server.fresh =
    (Server.fresh, [.ok (.int 0), .error (.code 404)]) := by
  refine (calls_in_turn (fun call member => ?_) answering_exact).trans rfl
  simp only [List.mem_cons, List.not_mem_nil, or_false] at member
  rcases member with rfl | rfl
  · exact ⟨by decide, ascii_of_all rfl, by decide, exact_null⟩
  · refine ⟨by decide, ascii_of_all rfl, by decide, exact_obj.mpr ⟨by decide, fun entry member => ?_⟩⟩
    cases List.mem_singleton.mp member
    exact exact_int 1

end Jsonrpc

section Upload

open HttpsClient

variable {types : MimeTypes} {params : List (List Char × List Char)} {files : List UploadFile} {method text : List Char}

/-- The fields a function gets of what a client sends. -/
def uploadFields (params : List (List Char × List Char)) (files : List UploadFile) : List (Option (List Char) × UploadValue) :=
  ((sentParts params files).map uploadParam).filter fun field =>
    field.1 ≠ some "service_id".toList && field.1 ≠ some "method".toList

theorem mem_withServiceId {param : List Char × List Char} (member : param ∈ params) : param ∈ withServiceId params := by
  unfold withServiceId
  split
  · exact member
  · exact List.mem_append_left _ member

/-- The id that is added does not reach the function. -/
theorem uploadFields_withServiceId : uploadFields (withServiceId params) files = uploadFields params files := by
  unfold withServiceId
  split
  · rfl
  · rw [uploadFields, uploadFields, sentParts, sentParts, List.map_append, List.map_append, List.map_append, List.map_append,
      List.filter_append, List.filter_append, List.filter_append]
    exact congrArg (· ++ _) (List.append_nil _)

theorem encoded_type {contentType body : List Char} (encoded : encodeMultipartFormdata types params files = .ok (contentType, body)) :
    contentType = "multipart/form-data; boundary=".toList ++ boundary := by
  unfold encodeMultipartFormdata at encoded
  split at encoded
  · cases encoded
    rfl
  · cases encoded

/-- What the server reads of a form that it finds complete. -/
theorem exchange_upload {contentType body : List Char} {contentLength : Option (List Char)} {parts : List Mime.BodyPart}
    (own : contentType = "multipart/form-data; boundary=".toList ++ boundary) (read : Mime.readForm contentType body = parts)
    (distinct : (parts.map Mime.BodyPart.name).Nodup) :
    server.exchange ⟨"POST".toList, ['/'], some contentType, contentLength, body⟩ s =
      server.dispatch .upload (.upload (parts.map uploadParam)) s := by
  have keys : ((parts.map uploadParam).map Prod.fst).Nodup := by
    rw [List.map_map]
    exact distinct
  have valid : ((Mime.parameters .skip contentType).lookup "boundary".toList).any validBoundary = true := by
    rw [own]
    rfl
  have parsed : parseUploadParams contentType body = some (.upload (parts.map uploadParam)) := by
    rw [parseUploadParams, if_pos valid, read, dictOf_distinct keys]
  have other : ¬ jsonContentTypes.contains contentType = true := by
    rw [own]
    decide
  have multipart : multipartContentType <+: contentType := by
    have start : multipartContentType <+: "multipart/form-data; boundary=".toList := by decide
    exact own ▸ start.trans (List.prefix_append ..)
  rw [exchange, handleOneRequest_post rfl rfl rfl, handlePost, if_neg other, if_pos multipart, parsed]
  exact Prod.ext rfl (by simp [dispatchRead, Option.head?_toList])

/-- A client that uploads files calls a function with what it sends. -/
theorem upload_calls (params_fine : ∀ param ∈ params, ParamFine param)
    (files_fine : ∀ file ∈ files, isAscii file.filename = true ∧ FileFine file)
    (distinct : ((sentParts (withServiceId params) files).map Mime.BodyPart.name).Nodup)
    (service : ("service_id".toList, text) ∈ withServiceId params) (number : pythonInt (String.ofList text) = some (serviceId : Int))
    (named : ("method".toList, method) ∈ params)
    (exact : (server.call .upload serviceId (String.ofList method) (.upload (uploadFields params files)) s).2.Exact) :
    ∃ request, httpsPost types ['/'] params files = .ok request ∧
      server.remotely request s = server.invoke .upload serviceId (String.ofList method) (.upload (uploadFields params files)) s := by
  have recovered := (encoded_iff types (withServiceId params) files).mpr ⟨(withServiceId_fine params).mpr params_fine, files_fine⟩
  unfold Recovered at recovered
  split at recovered
  · rename_i contentType body encoded
    refine ⟨_, congrArg (Except.map _) encoded, ?_⟩
    let read : RequestParams := .upload ((sentParts (withServiceId params) files).map uploadParam)
    have keys : (((sentParts (withServiceId params) files).map uploadParam).map Prod.fst).Nodup := by
      rw [List.map_map]
      exact distinct
    have find {key : String} {value : List Char} (member : (key.toList, value) ∈ withServiceId params) :
        read.get key = .found (.bytes value) := by
      have part : (some key.toList, .text value) ∈ (sentParts (withServiceId params) files).map uploadParam :=
        List.mem_map.mpr ⟨⟨some key.toList, none, value⟩, List.mem_append_left _ (List.mem_map.mpr ⟨_, member, rfl⟩), rfl⟩
      simp only [read, RequestParams.get, lookup_of_mem keys part]
    have given : read.callbackParams = .upload (uploadFields params files) := congrArg Arguments.upload uploadFields_withServiceId
    rw [← given] at exact ⊢
    rw [remotely, exchange_upload (encoded_type encoded) recovered distinct]
    exact dispatch_invoke (find service) number (find (mem_withServiceId named)) rfl rfl rfl (exact_int 1) exact
  · cases recovered

theorem none_oneLine (_ type : List Char) (given : none = some type) : Mime.OneLine type := by
  cases given

/-- Nothing is known of the type of a file. -/
def untyped : MimeTypes := ⟨fun _ => none, none_oneLine⟩

def scriptParams : List (List Char × List Char) :=
  [("method".toList, "upload_startup_script".toList), ("sid".toList, "1".toList)]

/-- A script of two lines. -/
def scriptFiles : List UploadFile := [⟨"script".toList, "run.sh".toList, "#!/bin/sh\r\ndate".toList⟩]

theorem script_uploaded : ∃ request, httpsPost untyped ['/'] scriptParams scriptFiles = .ok request ∧
    answering.remotely request Server.fresh = (Server.fresh, .ok (.int 0)) := by
  have params_fine : ∀ param ∈ scriptParams, ParamFine param := by
    intro param member
    simp only [scriptParams, List.mem_cons, List.not_mem_nil, or_false] at member
    rcases member with rfl | rfl <;>
      exact ⟨⟨rfl, by decide, by decide⟩, List.all_eq_true.mp (by decide)⟩
  have files_fine : ∀ file ∈ scriptFiles, isAscii file.filename = true ∧ FileFine file := by
    intro file member
    cases List.mem_singleton.mp member
    exact ⟨rfl, ⟨rfl, by decide, by decide⟩, ⟨rfl, by decide, by decide⟩, List.all_eq_true.mp (by decide)⟩
  have distinct : ((sentParts (withServiceId scriptParams) scriptFiles).map Mime.BodyPart.name).Nodup := by decide
  have service : ("service_id".toList, ['0']) ∈ withServiceId scriptParams := by decide
  have number : pythonInt (String.ofList ['0']) = some ((0 : Nat) : Int) := by decide
  have named : ("method".toList, "upload_startup_script".toList) ∈ scriptParams := by decide
  obtain ⟨request, made, same⟩ := upload_calls params_fine files_fine distinct service number named
    (answering_exact .upload 0 "upload_startup_script" (.upload (uploadFields scriptParams scriptFiles)) Server.fresh)
  have registered : ConPaaS.dispatch Server.fresh.callbackDict .upload (some 0) (some "upload_startup_script") =
      .calls 0 "upload_startup_script" := by decide
  exact ⟨request, made, same.trans (if_pos registered)⟩

end Upload

section Requests

/-- The requests for functions of a kind. -/
def Admitted (request : HttpRequest) (callbackType : HttpMethod) : Prop :=
  (∃ query, QueryString.urlparse request.path = some (['/'], query)) ∧ ∃ contentType, request.contentType = some contentType ∧
    match callbackType with
    | .get => request.command = "GET".toList ∧ contentType ∈ jsonContentTypes
    | .post => request.command = "POST".toList ∧ contentType ∈ jsonContentTypes
    | .upload => request.command = "POST".toList ∧ multipartContentType <+: contentType ∧ contentType ∉ jsonContentTypes

/-- Nothing was done and no reply says that anything was. -/
def Refused (s : σ) (handled : σ × List HttpReply) : Prop := handled.1 = s ∧ ∀ reply ∈ handled.2, reply.code ≠ 200

/-- A registered function was called once, and its result is the last that was
sent. -/
def CarriedOut (server : RpcServer σ) (callbackType : HttpMethod) (s : σ) (handled : σ × List HttpReply) : Prop :=
  ∃ serviceId name arguments requestId sent,
    ConPaaS.dispatch (server.callbackDict s) callbackType (some serviceId) (some name) = .calls serviceId name ∧
      (∀ reply ∈ sent, reply.code ≠ 200) ∧
      handled = ((server.call callbackType serviceId name arguments s).1,
        sent ++ (server.respond serviceId name arguments requestId (server.call callbackType serviceId name arguments s).2).toList)

/-- A function that is called is the one asked for. -/
theorem calls_asked {callbacks : CallbackDict} {asked : Option String} {other : Nat}
    (calls : ConPaaS.dispatch callbacks callbackType (some serviceId) asked = .calls other name) :
    ConPaaS.dispatch callbacks callbackType (some other) (some name) = .calls other name := by
  have own := calls
  unfold ConPaaS.dispatch at calls
  split at calls
  · cases calls
  · rename_i id given
    split at calls
    · cases calls
    · split at calls
      · cases calls
      · split at calls
        · cases calls
          exact given ▸ own
        · cases calls

/-- What a server has done with a request whose parameters it can read. -/
theorem dispatchRead_sound (callbackType : HttpMethod) (params : RequestParams) {sent : List HttpReply}
    (refusing : ∀ reply ∈ sent, reply.code ≠ 200) :
    Refused s (server.dispatchRead callbackType sent (some params) s) ∨
      CarriedOut server callbackType s (server.dispatchRead callbackType sent (some params) s) := by
  let P (result : σ × Option HttpReply) : Prop :=
    Refused s (result.1, sent ++ result.2.toList) ∨ CarriedOut server callbackType s (result.1, sent ++ result.2.toList)
  have refused (reply : Option HttpReply) (other : ∀ own ∈ reply, own.code ≠ 200) : P (s, reply) := by
    refine Or.inl ⟨rfl, fun own member => (List.mem_append.mp member).elim (refusing own) fun member => ?_⟩
    exact other own (Option.mem_toList.mp member)
  have silent : P (s, none) := refused none fun _ member => by cases member
  have answered (code : Nat) (body : List Char) (other : code ≠ 200) : P (s, some ⟨code, body⟩) :=
    refused _ fun _ member => by
      cases member
      exact other
  change P (server.dispatch callbackType params s)
  unfold RpcServer.dispatch
  dsimp only
  split
  · exact silent
  · exact answered 400 _ (by decide)
  · exact answered 404 _ (by decide)
  · split
    case h_1 => exact answered 400 _ (by decide)
    case h_2 => exact answered 404 _ (by decide)
    case h_3 | h_4 =>
      split
      · exact answered 400 _ (by decide)
      · split
        · exact answered 404 _ (by decide)
        · exact silent
    case h_5 calls =>
      split
      · exact silent
      · exact Or.inr ⟨_, _, _, _, sent, calls_asked calls, refusing, rfl⟩

theorem parseJsonrpcPostParams_refusing (request : HttpRequest) :
    ∀ reply ∈ (server.parseJsonrpcPostParams request).1, reply.code ≠ 200 := by
  have single (code : Nat) (other : code ≠ 200) : ∀ reply ∈ [server.sendError code], reply.code ≠ 200 :=
    List.forall_mem_singleton.mpr other
  have refused (length : List Char) : ∀ reply ∈ (if length ≠ [] ∧ length.all Char.isDigit then [] else [server.sendError 400]),
      reply.code ≠ 200 := by
    split
    · exact List.forall_mem_nil _
    · exact single 400 (by decide)
  unfold parseJsonrpcPostParams
  split
  · exact single 411 (by decide)
  · rename_i length given
    dsimp only
    split <;> exact refused length

/-- Whatever comes to a server, it calls at most one function, which is registered
for requests of this kind, and says that a request has succeeded only when it
has called one. -/
theorem handleOneRequest_sound (request : HttpRequest) (s : σ) :
    Refused s (server.handleOneRequest request s) ∨
      ∃ callbackType, Admitted request callbackType ∧ CarriedOut server callbackType s (server.handleOneRequest request s) := by
  let P (handled : σ × List HttpReply) : Prop :=
    Refused s handled ∨ ∃ callbackType, Admitted request callbackType ∧ CarriedOut server callbackType s handled
  have refused (code : Nat) (other : code ≠ 200) : P (s, [server.sendError code]) :=
    Or.inl ⟨rfl, List.forall_mem_singleton.mpr other⟩
  have read (callbackType : HttpMethod) (admitted : Admitted request callbackType) {sent : List HttpReply}
      (refusing : ∀ reply ∈ sent, reply.code ≠ 200) : ∀ params, P (server.dispatchRead callbackType sent params s)
    | none => Or.inl ⟨rfl, refusing⟩
    | some params => (dispatchRead_sound callbackType params refusing).imp_right fun carried => ⟨callbackType, admitted, carried⟩
  change P (server.handleOneRequest request s)
  unfold handleOneRequest
  split
  · exact Or.inl ⟨rfl, List.forall_mem_nil _⟩
  rename_i path query parsed
  split
  · exact refused 404 (by decide)
  rename_i root
  rw [not_not] at root
  subst root
  split
  · exact refused 415 (by decide)
  rename_i contentType given
  split
  · rename_i command
    unfold handleGet
    split
    · rename_i json
      exact read .get ⟨⟨query, parsed⟩, contentType, given, command, List.contains_iff_mem.mp json⟩ (List.forall_mem_nil _) _
    · exact refused 415 (by decide)
  split
  · rename_i command
    unfold handlePost
    split
    · rename_i json
      exact read .post ⟨⟨query, parsed⟩, contentType, given, command, List.contains_iff_mem.mp json⟩ (parseJsonrpcPostParams_refusing request) _
    split
    · rename_i json multipart
      exact read .upload ⟨⟨query, parsed⟩, contentType, given, command, multipart, fun member => json (List.contains_iff_mem.mpr member)⟩ (List.forall_mem_nil _) _
    · exact refused 415 (by decide)
  · exact refused 405 (by decide)

end Requests

section Services

open Transition

variable {server : RpcServer Server} {first current : Server} {walk : List HttpMethod} {events : List ServerEvent}
  {enumeration : Enumeration} {method : List Char} {params : Value}

theorem dispatch_iff {callbacks : CallbackDict} {exposed : Exposed} (serves : callbacks.Serves serviceId exposed) :
    ConPaaS.dispatch callbacks callbackType (some serviceId) (some name) = .calls serviceId name ↔ name ∈ exposed callbackType := by
  refine ⟨fun calls => ?_, Server.dispatch_serves serves⟩
  rcases serves callbackType with ⟨-, none⟩ | ⟨-, names, found, listed⟩
  · rw [ConPaaS.dispatch, none] at calls
    cases calls
  · rw [ConPaaS.dispatch, found] at calls
    dsimp only at calls
    split at calls
    · rename_i member
      exact (listed name).mp member
    · cases calls

/-- In every state of the process a client reaches the functions of the services
that are there, and those of services nobody has added are not found. -/
theorem calls_of_run (own : server.callbackDict = Server.callbackDict) (starts : first.Starts) (walked : walk.Perm HttpMethod.all)
    (run : Run (Server.Step walk) first events current) (jsonrpc : callbackType ≠ .upload) (ascii : ∀ c ∈ method, c.toNat < 0x80)
    (named : method ≠ []) (plain : Exact params) (exact : (server.call callbackType serviceId (String.ofList method)
      (.json (received server.floats callbackType params)) current).2.Exact) :
    (current.process.manager.registered serviceId = true →
      server.remotely (jsonrpcRequest server.floats enumeration method serviceId params callbackType) current =
        if String.ofList method ∈ current.exposed serviceId callbackType then
          let (after, called) := server.call callbackType serviceId (String.ofList method)
            (.json (received server.floats callbackType params)) current
          (after, server.outcome serviceId (String.ofList method) (.json (received server.floats callbackType params)) called)
        else (current, .error (.code 404))) ∧
    (current.process.manager.serviceId < serviceId →
      server.remotely (jsonrpcRequest server.floats enumeration method serviceId params callbackType) current =
        (current, .error (.code 404))) := by
  obtain ⟨agree, -⟩ := Server.agree_of_run starts walked run
  rw [jsonrpc_calls jsonrpc ascii named plain exact, invoke, own]
  refine ⟨fun registered => ?_, fun unknown => ?_⟩
  · simp only [dispatch_iff (agree.served serviceId registered)]
  · rw [if_neg]
    rw [ConPaaS.dispatch, agree.fresh serviceId unknown callbackType]
    exact fun calls => by cases calls

theorem added_answers : ∃ current, Run (Server.Step Server.pythonWalk) Server.fresh [.made Server.helloworldExposed] current ∧
    answering.remotely (jsonrpcRequest answering.floats answering.enumeration "get_helloworld".toList 1 .null .get) current =
      (current, .ok (.int 1)) ∧
    answering.remotely (jsonrpcRequest answering.floats answering.enumeration "get_helloworld".toList 2 .null .get) current =
      (current, .error (.code 404)) := by
  obtain ⟨current, played, known, last, exposed⟩ : ∃ current,
      play (fun s event => Server.handle s Server.pythonWalk event) Server.fresh [.made Server.helloworldExposed] = some current ∧
        current.process.manager.registered 1 = true ∧ current.process.manager.serviceId = 1 ∧
        "get_helloworld" ∈ current.exposed 1 .get :=
    ⟨_, rfl, by decide +kernel, by decide +kernel, by decide +kernel⟩
  have own : answering.callbackDict = Server.callbackDict := rfl
  have walked : Server.pythonWalk.Perm HttpMethod.all := by decide
  have run := Run.play played
  have exact (sid : Nat) :=
    answering_exact .get sid "get_helloworld" (.json (received answering.floats .get .null)) current
  refine ⟨current, run, ?_, ?_⟩
  · refine ((calls_of_run own Server.fresh_starts walked run (by decide) (ascii_of_all rfl) (by decide) exact_null (exact 1)).1 known).trans ?_
    have answer : (.ok (.int current.process.manager.serviceId) : Except ClientError Value) = .ok (.int 1) := by rw [last]; rfl
    exact (if_pos exposed).trans (Prod.ext rfl answer)
  · have later : current.process.manager.serviceId < 2 := by omega
    exact (calls_of_run own Server.fresh_starts walked run (by decide) (ascii_of_all rfl) (by decide) exact_null (exact 2)).2 later

end Services

end RpcServer

end ConPaaS
