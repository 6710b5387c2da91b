import ConPaaS.Director.Authentication
import ConPaaS.Https.Multipart
import ConPaaS.Lib.PythonJson
import ConPaaS.Lib.QueryString
import ConPaaS.Manager.Registration
import Mathlib.Data.List.Infix

namespace ConPaaS

open Json Python

/-- A request after its headers are parsed. -/
structure HttpRequest where
  command : List Char
  path : List Char
  contentType : Option (List Char)
  contentLength : Option (List Char)
  body : List Char

structure HttpReply where
  code : Nat
  body : List Char
  deriving DecidableEq, Repr

/-- A value in the parameters of a request. -/
inductive ParamValue
  | json (value : Value)
  | bytes (text : List Char)
  | file (filename content : List Char)

/-- The parameters of a request, as its kind of content gives them. -/
inductive RequestParams
  | json (params : Value)
  | query (params : List (List Char × List Char)) (arguments : Option Value)
  | upload (params : List (Option (List Char) × HttpsClient.UploadValue))

/-- What comes of a key that is looked up. -/
inductive ParamLookup
  | raises
  | missing
  | found (value : ParamValue)

/-- What a function is called with. -/
inductive Arguments
  | json (params : Value)
  | upload (fields : List (Option (List Char) × HttpsClient.UploadValue))

/-- What comes of calling a function: a response of one of three kinds, any
other value, or an exception with its traceback. A file that is to be sent may
turn out not to open. -/
inductive CallResult
  | json (obj : Value)
  | error (message : Value)
  | file (content : Except (List Char) (List Char))
  | other
  | raises (trace : List Char)

namespace ParamValue

variable (floats : Floats)

/-- `int` -/
def int : ParamValue → Option Int
  | .json (.int value) => some value
  | .json (.bool value) => some (if value then 1 else 0)
  | .json (.float text) => floats.toInt text
  | .json (.str text) | .bytes text => pythonInt (String.ofList text)
  | .json _ | .file .. => none

/-- Whether a value can be looked for in a dictionary. -/
def hashable : ParamValue → Bool
  | .json (.arr _) | .json (.obj _) => false
  | _ => true

def string : ParamValue → Option String
  | .json (.str text) | .bytes text => some (String.ofList text)
  | .json _ | .file .. => none

/-- What `json.dumps` takes a value for. -/
def dumped : ParamValue → Option Value
  | .json value => some value
  | .bytes text => (utf8 text).map .str
  | .file .. => none

end ParamValue

namespace RequestParams

/-- `params[key]`, after a test whether there is such a key. -/
def get (key : String) : RequestParams → ParamLookup
  | .json (.obj entries) =>
    match entries.lookup key.toList with
    | some value => .found (.json value)
    | none => .missing
  | .json (.arr items) =>
    if items.any fun | .str text => text = key.toList | _ => false then .raises else .missing
  | .json (.str text) => if key.toList <:+: text then .raises else .missing
  | .json _ => .raises
  | .query params _ =>
    match params.lookup key.toList with
    | some text => .found (.bytes text)
    | none => .missing
  | .upload params =>
    match params.lookup (some key.toList) with
    | some (.text value) => .found (.bytes value)
    | some (.file filename content) => .found (.file filename content)
    | none => .missing

/-- `callback_params` -/
def callbackParams : RequestParams → Arguments
  | .json (.obj entries) => .json ((entries.lookup "params".toList).getD (.obj []))
  | .json _ => .json (.obj [])
  | .query _ arguments => .json (arguments.getD (.obj []))
  | .upload params => .upload (params.filter fun param =>
      param.1 ≠ some "service_id".toList && param.1 ≠ some "method".toList)

/-- `request_id`, which a request other than an upload has to have. -/
def requestId : RequestParams → Option ParamValue
  | .upload _ => some (.json (.int 1))
  | params =>
    match params.get "id" with
    | .found id => some id
    | _ => none

end RequestParams

/-- `JSON_CONTENT_TYPES` -/
def jsonContentTypes : List (List Char) :=
  ["application/json-rpc".toList, "application/json".toList, "application/jsonrequest".toList]

/-- `MULTIPART_CONTENT_TYPE` -/
def multipartContentType : List Char := "multipart/form-data".toList

/-- The parameters of a query, with its arguments read. -/
def readArguments (params : List (List Char × List Char)) : Option RequestParams :=
  match params.lookup "params".toList with
  | none => some (.query params none)
  | some text => (loadsBytes text).map fun arguments => .query params (some arguments)

/-- `_parse_jsonrpc_get_params`. Of repeated parameters the last one counts. -/
def parseJsonrpcGetParams (query : List Char) : Option RequestParams := readArguments (dictOf (QueryString.parseQsl query))

/-- `valid_boundary` -/
def validBoundary (boundary : List Char) : Bool :=
  boundary.all (fun c => 0x20 ≤ c.toNat && c.toNat ≤ 0x7e) && boundary.length ≤ 201 &&
    boundary.getLast?.any fun c => c ≠ ' '

/-- What the server makes of a part of a form. -/
def uploadParam (part : Mime.BodyPart) : Option (List Char) × HttpsClient.UploadValue :=
  (part.name, match part.filename with
    | none => .text part.content
    | some filename => .file filename part.content)

/-- `_parse_upload_params`. Of repeated parameters the last one counts. -/
def parseUploadParams (contentType body : List Char) : Option RequestParams :=
  if ((Mime.parameters .skip contentType).lookup "boundary".toList).any validBoundary then
    some (.upload (dictOf ((Mime.readForm contentType body).map uploadParam)))
  else none

/-- A server with the functions it calls. -/
structure RpcServer (σ : Type) where
  floats : Floats
  enumeration : Enumeration
  callbackDict : σ → CallbackDict
  call : HttpMethod → Nat → String → Arguments → σ → σ × CallResult
  /-- How arguments are written into a message. -/
  shown : Arguments → List Char
  /-- The traceback when the id of a request cannot be written. -/
  undumped : ParamValue → List Char
  /-- The page for a code. -/
  errorPage : Nat → List Char

namespace RpcServer

variable {σ : Type} (server : RpcServer σ)

def sendError (code : Nat) : HttpReply := ⟨code, server.errorPage code⟩

/-- The message for the client when a call has raised. -/
def errmsg (serviceId : Nat) (name : String) (arguments : Arguments) (trace : List Char) : List Char :=
  "Error when calling method ".toList ++ name.toList ++ " on service ".toList ++ Nat.toDigits 10 serviceId ++
    " with params ".toList ++ server.shown arguments ++ ": ".toList ++ trace

def sendErrmsg (errmsg : List Char) : HttpReply :=
  ⟨200, dumps server.floats (.obj [("error".toList, .str errmsg)])⟩

/-- What is sent to a client once the function is called. -/
def respond (serviceId : Nat) (name : String) (arguments : Arguments) (requestId : ParamValue) (called : CallResult) :
    Option HttpReply :=
  let raised := fun trace => some (server.sendErrmsg (server.errmsg serviceId name arguments trace))
  match called with
  | .file (.ok content) => some ⟨200, content⟩
  | .file (.error trace) | .raises trace => raised trace
  | .error message =>
    match requestId.dumped with
    | some id => some ⟨200, dumps server.floats (.obj (server.enumeration.entries Value
        [("error".toList, message), ("id".toList, id)]))⟩
    | none => raised (server.undumped requestId)
  | .json obj =>
    match requestId.dumped with
    | some id => some ⟨200, dumps server.floats (.obj (server.enumeration.entries Value
        [("result".toList, obj), ("error".toList, .null), ("id".toList, id)]))⟩
    | none => raised (server.undumped requestId)
  | .other => none

/-- `service_id` as a key of the callbacks: `none` where the key or `int` raises,
and `some none` where there is no such key. -/
def serviceId (params : RequestParams) : Option (Option Int) :=
  match params.get "service_id" with
  | .raises => none
  | .missing => some none
  | .found value => (value.int server.floats).map some

/-- `_dispatch`. A request for which it raises gets no reply from it. -/
def dispatch (callbackType : HttpMethod) (params : RequestParams) (s : σ) : σ × Option HttpReply :=
  match server.serviceId params with
  | none => (s, none)
  | some none => (s, some ⟨400, "Did not specify service".toList⟩)
  | some (some (.negSucc _)) => (s, some ⟨404, "Service not found".toList⟩)
  | some (some (.ofNat serviceId)) =>
    let method := match params.get "method" with
      | .found value => some value
      | _ => none
    match ConPaaS.dispatch (server.callbackDict s) callbackType (some serviceId) (method.bind ParamValue.string) with
    | .serviceMissing => (s, some ⟨400, "Did not specify service".toList⟩)
    | .serviceNotFound => (s, some ⟨404, "Service not found".toList⟩)
    | .methodMissing | .methodNotFound =>
      -- A method that is no string is a key no function has, if it can be a key.
      match method with
      | none => (s, some ⟨400, "Did not specify method".toList⟩)
      | some value => if value.hashable then (s, some ⟨404, "Method not found".toList⟩) else (s, none)
    | .calls serviceId name =>
      match params.requestId with
      | none => (s, none)
      | some requestId =>
        let arguments := params.callbackParams
        let (after, called) := server.call callbackType serviceId name arguments s
        (after, server.respond serviceId name arguments requestId called)

/-- `_parse_jsonrpc_post_params`: what is sent on the way, and the parameters
unless it raises. A length that is refused is still taken where `int` takes it. -/
def parseJsonrpcPostParams (request : HttpRequest) : List HttpReply × Option RequestParams :=
  match request.contentLength with
  | none => ([server.sendError 411], none)
  | some length =>
    let refused := if length ≠ [] ∧ length.all Char.isDigit then [] else [server.sendError 400]
    match pythonInt (String.ofList length) with
    | none => (refused, none)
    | some length =>
      (refused, (loadsBytes (if length < 0 then request.body else request.body.take length.toNat)).map .json)

/-- The parameters a handler has read go to `_dispatch`. -/
def dispatchRead (callbackType : HttpMethod) (sent : List HttpReply) (params : Option RequestParams) (s : σ) : σ × List HttpReply :=
  match params with
  | none => (s, sent)
  | some params =>
    let (after, reply) := server.dispatch callbackType params s
    (after, sent ++ reply.toList)

/-- `_handle_get` -/
def handleGet (contentType query : List Char) (s : σ) : σ × List HttpReply :=
  if jsonContentTypes.contains contentType then server.dispatchRead .get [] (parseJsonrpcGetParams query) s
  else (s, [server.sendError 415])

/-- `_handle_post` -/
def handlePost (contentType : List Char) (request : HttpRequest) (s : σ) : σ × List HttpReply :=
  if jsonContentTypes.contains contentType then
    let (sent, params) := server.parseJsonrpcPostParams request
    server.dispatchRead .post sent params s
  else if multipartContentType <+: contentType then
    server.dispatchRead .upload [] (parseUploadParams contentType request.body) s
  else (s, [server.sendError 415])

/-- `handle_one_request`, with everything that is sent. -/
def handleOneRequest (request : HttpRequest) (s : σ) : σ × List HttpReply :=
  match QueryString.urlparse request.path with
  | none => (s, [])
  | some (path, query) =>
    if path ≠ ['/'] then (s, [server.sendError 404])
    else
      match request.contentType with
      | none => (s, [server.sendError 415])
      | some contentType =>
        if request.command = "GET".toList then server.handleGet contentType query s
        else if request.command = "POST".toList then server.handlePost contentType request s
        else (s, [server.sendError 405])

/-- A request and the reply its client gets, if there is one. -/
def exchange (request : HttpRequest) (s : σ) : σ × Option HttpReply :=
  let (after, sent) := server.handleOneRequest request s
  (after, sent.head?)

end RpcServer

/-- Why a client does not get a result. -/
inductive ClientError
  | noReply
  | code (code : Nat)
  | malformed
  | remote (error : Value)

namespace HttpsClient

variable (floats : Floats) (enumeration : Enumeration)

/-- `jsonrpc_get`. Parameters that count as false are left out. -/
def jsonrpcGet (uri method : List Char) (serviceId : Nat) (params : Option Value) : HttpRequest where
  command := "GET".toList
  path := uri ++ '?' :: QueryString.urlencode (enumeration.entries (List Char)
    ([("service_id".toList, Nat.toDigits 10 serviceId), ("method".toList, method), ("id".toList, ['1'])] ++
      match params.filter (truthy floats) with
      | some params => [("params".toList, dumps floats params)]
      | none => []))
  contentType := some "application/json".toList
  contentLength := none
  body := []

/-- `jsonrpc_post` -/
def jsonrpcPost (uri method : List Char) (serviceId : Nat) (params : Value) : HttpRequest :=
  let body := dumps floats (.obj (enumeration.entries Value
    [("service_id".toList, .int serviceId), ("method".toList, .str method), ("params".toList, params), ("id".toList, .str ['1'])]))
  { command := "POST".toList
    path := uri
    contentType := some "application/json".toList
    contentLength := some (Nat.toDigits 10 body.length)
    body }

/-- `https_post`, where all texts can be encoded. -/
def httpsPost (types : MimeTypes) (uri : List Char) (params : List (List Char × List Char)) (files : List UploadFile) :
    Except String HttpRequest :=
  (encodeMultipartFormdata types (withServiceId params) files).map fun (contentType, body) =>
    { command := "POST".toList
      path := uri
      contentType := some contentType
      contentLength := some (Nat.toDigits 10 body.length)
      body }

/-- `check_response` -/
def checkResponse : Option HttpReply → Except ClientError Value
  | none => .error .noReply
  | some reply =>
    if reply.code ≠ 200 then .error (.code reply.code)
    else
      match loadsBytes reply.body with
      | some (.obj data) =>
        match data.lookup "error".toList with
        | none => .error .malformed
        | some error =>
          if truthy floats error then .error (.remote error)
          else
            match data.lookup "result".toList with
            | some result => .ok result
            | none => .error .malformed
      | _ => .error .malformed

end HttpsClient

end ConPaaS
