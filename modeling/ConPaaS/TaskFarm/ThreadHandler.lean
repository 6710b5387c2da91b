import ConPaaS.Lib.Json
import ConPaaS.Lib.Lines

namespace ConPaaS

/-- The default charset of the machine, in which bytes become strings and
strings bytes. It knows all characters. -/
structure Charset where
  decode : List UInt8 → List Char
  getBytes : List Char → List UInt8
  decode_getBytes : ∀ text, decode (getBytes text) = text

/-- UTF-8, where bytes that are none stand for one unknown character. -/
def Charset.utf8 : Charset where
  decode bytes := ((String.fromUTF8? bytes.toByteArray).map String.toList).getD ['\ufffd']
  getBytes text := (String.ofList text).toByteArray.data.toList
  decode_getBytes text := by
    have same : (String.ofList text).toByteArray.data.toList.toByteArray = (String.ofList text).toByteArray :=
      ByteArray.ext (Array.toList_inj.mp List.toList_data_toByteArray)
    rw [same, String.fromUTF8?, dif_pos (String.ofList text).isValidUTF8]
    exact String.toList_ofList

/-- `String.indexOf`, without a place where the string is not found. -/
def indexOf (string : List Char) : List Char → Option Nat
  | [] => if string = [] then some 0 else none
  | c :: rest => if string.isPrefixOf (c :: rest) then some 0 else (indexOf string rest).map (· + 1)

/-- `String.indexOf` from a place on. -/
def indexOfFrom (string text : List Char) (fromIndex : Nat) : Option Nat :=
  (indexOf string (text.drop fromIndex)).map (fromIndex + ·)

/-- What is read of a part of a multipart request: the values of its headers
`Content-Disposition`, its content and the name of its file, if it has one. -/
structure BodyPart where
  dispositions : List (List Char)
  content : List Char
  fileName : Option (List Char)
  deriving DecidableEq, Repr

/-- `jsonrpcMap`. -/
structure JsonrpcMap where
  jsonrpc : List Char
  method : List Char
  uriLocation : List Char
  botFile : List Char
  id : List Char
  deriving DecidableEq, Repr

namespace ThreadHandler

/-- The name in a header. Where `indexOf` finds no name it is -1, and the name is
sought from the fifth character on. -/
def parseNameFromHeaderLine (value : List Char) : Option (List Char) :=
  let idxBeg := ((indexOf "name=\"".toList value).map (· + 6)).getD 5
  match indexOfFrom ['"'] value idxBeg with
  | some idxEnd => if idxBeg < idxEnd ∧ idxEnd ≤ value.length then some ((value.take idxEnd).drop idxBeg) else none
  | none => none

/-- The name of a part: that of the first of its headers with a name. -/
def nameOf (part : BodyPart) : Option (List Char) := part.dispositions.findSome? parseNameFromHeaderLine

/-- The name under which the file of a part is stored. -/
def botFileOf (part : BodyPart) : List Char :=
  match part.fileName with
  | none | some [] => "botFile.bot".toList
  | some fileName => fileName

/-- The file system takes some names of files; for the others `writeToFile` raises. -/
def handleBodyPart (saves : List Char → Bool) (name : List Char) (part : BodyPart) (jsonrpcMap : JsonrpcMap) :
    Option JsonrpcMap :=
  if name = "method".toList then some { jsonrpcMap with method := part.content }
  else if name = "uriLocation".toList then some { jsonrpcMap with uriLocation := part.content }
  else if name = "botFile".toList then
    if saves (botFileOf part) then some { jsonrpcMap with botFile := botFileOf part } else none
  else some jsonrpcMap

def createStringFromMap (map : JsonrpcMap) : List Char :=
  "\x7b\"jsonrpc\":\"".toList ++ map.jsonrpc ++ "\", ".toList ++
    "\"method\":\"".toList ++ map.method ++ "\", ".toList ++
    "\"params\":[".toList ++
    "\"".toList ++ map.uriLocation ++ "\", ".toList ++
    "\"".toList ++ map.botFile ++ "\"], ".toList ++
    "\"id\":".toList ++ map.id ++ "\x7d".toList

/-- What `handleJsonRpc` gives to the JSON server: what comes after the last line
break of the bytes. -/
def handleJsonRpc (charset : Charset) (byteArray : List UInt8) : List UInt8 :=
  charset.getBytes (Lines.lastLine (charset.decode byteArray))

/-- The map before the parts are read. -/
def emptyMap : JsonrpcMap := ⟨"2.0".toList, [], [], [], "1".toList⟩

/-- A part without a name is left out. -/
def readPart (saves : List Char → Bool) (jsonrpcMap : JsonrpcMap) (part : BodyPart) : Option JsonrpcMap :=
  match nameOf part with
  | none => some jsonrpcMap
  | some name => handleBodyPart saves name part jsonrpcMap

def readParts (saves : List Char → Bool) (parts : List BodyPart) : Option JsonrpcMap :=
  parts.foldlM (readPart saves) emptyMap

/-- `handleMime`, with what it has the JSON server handle. -/
def handleMime (charset : Charset) (saves : List Char → Bool) (parts : List BodyPart) : Option (List UInt8) :=
  (readParts saves parts).map fun jsonrpcMap => handleJsonRpc charset (charset.getBytes (createStringFromMap jsonrpcMap))

end ThreadHandler

end ConPaaS
