import Blocktrail.Lib.Assoc
import Blocktrail.Lib.Encoding
import Blocktrail.Lib.Php

/-! # Signing and verifying a message in PHP

`http-signatures-php`: a signer writes a keyed hash of some headers of a message into two more headers, and a verifier
computes it again. A string is its bytes, each as a character. `hash_hmac` is a parameter.
-/

open Text Php

namespace HttpSignatures

/-- What is thrown, one constructor a class. `exception` is the class the others extend. -/
inductive Error
  | signatureParse (message : Str)
  | keyStore (message : Str)
  | signedHeaderNotPresent (message : Str)
  | exception (message : Str)
  deriving DecidableEq

/-- `hash_hmac($algo, $data, $key, true)`. -/
abbrev HashHmac := Str → Str → Str → List UInt8

def strtolower (s : Str) : Str := s.map Char.toLower

/-! ## Messages -/

/-- A message. The names of its headers are kept in lower case. -/
structure Message where
  method : Str
  pathInfo : Str
  queryString : Option Str
  headers : Assoc.Object Str Str

/-- `$headers->get($name)`, `none` where `has` is false. -/
def Message.header (m : Message) (name : Str) : Option Str := m.headers.get? (strtolower name)

def Message.setHeader (m : Message) (name value : Str) : Message :=
  { m with headers := m.headers.set (strtolower name) value }

def Message.getPathWithQueryString (m : Message) : Str :=
  match m.queryString with
  | none => m.pathInfo
  | some qs => m.pathInfo ++ '?' :: qs

/-! ## Header lists and signing strings -/

structure HeaderList where
  names : List Str

/-- The constructor. -/
def HeaderList.ofNames (names : List Str) : HeaderList := ⟨names.map strtolower⟩

def HeaderList.fromString (string : Str) : HeaderList := .ofNames (string.splitOn ' ')

def HeaderList.string (l : HeaderList) : Str := implode ' ' l.names

def headerValue (m : Message) (name : Str) : Except Error Str :=
  match m.header name with
  | some value => .ok value
  | none => .error (.signedHeaderNotPresent ("Header '".toList ++ name ++ "' not in message".toList))

/-- The name that stands for the method and the target. -/
def requestTarget : Str := "(request-target)".toList

def requestTargetLine (m : Message) : Str :=
  "(request-target): ".toList ++ strtolower m.method ++ ' ' :: m.getPathWithQueryString

def line (m : Message) (name : Str) : Except Error Str :=
  if name = requestTarget then .ok (requestTargetLine m)
  else do return name ++ ": ".toList ++ (← headerValue m name)

def signingString (l : HeaderList) (m : Message) : Except Error Str := do
  return implode '\n' (← l.names.mapM (line m))

/-! ## Keys and algorithms -/

structure Key where
  id : Str
  secret : Str
  deriving DecidableEq

/-- `KeyStoreInterface`: its one method, `fetch`. -/
abbrev KeyStoreInterface := Str → Except Error Key

structure KeyStore where
  keys : Assoc.Object Str Key

/-- The constructor, of ids with their secrets. -/
def KeyStore.ofKeys (keys : Assoc.Object Str Str) : KeyStore :=
  ⟨keys.entries.foldl (fun o e => o.set e.1 ⟨e.1, e.2⟩) .empty⟩

def KeyStore.fetch (s : KeyStore) : KeyStoreInterface := fun id =>
  match s.keys.get? id with
  | some key => .ok key
  | none => .error (.keyStore ("Key '".toList ++ id ++ "' not found".toList))

structure HmacAlgorithm where
  digestName : Str
  deriving DecidableEq

def HmacAlgorithm.name (a : HmacAlgorithm) : Str := "hmac-".toList ++ a.digestName

def HmacAlgorithm.sign (hash : HashHmac) (a : HmacAlgorithm) (key data : Str) : List UInt8 := hash a.digestName data key

/-- `Algorithm::create`. -/
def createAlgorithm (name : Str) : Except Error HmacAlgorithm :=
  if name = "hmac-sha1".toList then .ok ⟨"sha1".toList⟩
  else if name = "hmac-sha256".toList then .ok ⟨"sha256".toList⟩
  else .error (.exception ("No algorithm named '".toList ++ name ++ "'".toList))

/-! ## Signing -/

/-- `Signature::string`. -/
def signature (hash : HashHmac) (m : Message) (key : Key) (algorithm : HmacAlgorithm) (l : HeaderList) :
    Except Error (List UInt8) := do
  return algorithm.sign hash key.secret (← signingString l m)

structure Signer where
  key : Key
  algorithm : HmacAlgorithm
  headerList : HeaderList

def parameterComponents (s : Signer) (signature : List UInt8) : List Str :=
  ["keyId=\"".toList ++ s.key.id ++ ['"'],
    "algorithm=\"".toList ++ s.algorithm.name ++ ['"'],
    "headers=\"".toList ++ s.headerList.string ++ ['"'],
    "signature=\"".toList ++ Base64.encode signature ++ ['"']]

/-- `SignatureParameters::string`, which signs. -/
def Signer.signatureParameters (hash : HashHmac) (s : Signer) (m : Message) : Except Error Str := do
  return implode ',' (parameterComponents s (← signature hash m s.key s.algorithm s.headerList))

/-- The second header is computed on a message that has the first. -/
def Signer.sign (hash : HashHmac) (s : Signer) (m : Message) : Except Error Message := do
  let signed := m.setHeader "Signature".toList (← s.signatureParameters hash m)
  return signed.setHeader "Authorization".toList ("Signature ".toList ++ (← s.signatureParameters hash signed))

/-! ## Reading the parameters -/

def parameterNames : List Str := ["keyId".toList, "algorithm".toList, "headers".toList, "signature".toList]

/-- `"(.*)"\z`: a dot is no newline. -/
def quoted? (s : Str) : Option Str :=
  match s with
  | [] => none
  | c :: rest => if c = '"' ∧ rest.getLast? = some '"' ∧ '\n' ∉ rest.dropLast then some rest.dropLast else none

/-- `/\A(keyId|algorithm|headers|signature)="(.*)"\z/`. -/
def matchPair (segment : Str) : Option (Str × Str) :=
  parameterNames.findSome? fun name =>
    ((name ++ ['=']).isPrefixOf? segment).bind fun rest => (quoted? rest).map fun value => (name, value)

def pair (segment : Str) : Except Error (Str × Str) :=
  match matchPair segment with
  | some p => .ok p
  | none => .error (.signatureParse ("Signature parameters segment '".toList ++ segment ++ "' invalid".toList))

def pairsToAssociative (pairs : List (Str × Str)) : Assoc.Object Str Str :=
  pairs.foldl (fun o p => o.set p.1 p.2) .empty

def validateAllKeysArePresent (result : Assoc.Object Str Str) : Except Error Unit :=
  match parameterNames.filter (· ∉ result.keys) with
  | [] => .ok ()
  | missing => .error (.signatureParse ("Missing keys ".toList ++ ", ".toList.intercalate missing))

/-- `SignatureParametersParser::parse`. -/
def parse (input : Str) : Except Error (Assoc.Object Str Str) := do
  let result := pairsToAssociative (← (input.splitOn ',').mapM pair)
  validateAllKeysArePresent result
  return result

/-! ## Verifying -/

/-- A header that `if` takes for true: neither empty nor `0`. -/
def truthyHeader (m : Message) (name : Str) : Option Str := (m.header name).filter fun s => s ≠ [] ∧ s ≠ ['0']

def signatureHeader (m : Message) : Except Error Str :=
  match truthyHeader m "Signature".toList with
  | some signature => .ok signature
  | none =>
    match truthyHeader m "Authorization".toList with
    | some authorization => .ok (authorization.drop "Signature ".length)
    | none => .error (.exception "HTTP message has no Signature or Authorization header".toList)

def parameter (m : Message) (name : Str) : Except Error Str := do
  let parameters ← parse (← signatureHeader m)
  match parameters.get? name with
  | some value => return value
  | none => throw (.exception ("Signature parameters does not contain '".toList ++ name ++ "'".toList))

def expectedSignature (hash : HashHmac) (fetch : KeyStoreInterface) (m : Message) : Except Error (List UInt8) := do
  let key ← fetch (← parameter m "keyId".toList)
  let algorithm ← createAlgorithm (← parameter m "algorithm".toList)
  let headerList := HeaderList.fromString (← parameter m "headers".toList)
  signature hash m key algorithm headerList

/-- Three classes are caught; the class they extend is not. -/
def signatureMatches (hash : HashHmac) (fetch : KeyStoreInterface) (m : Message) : Except Error Bool :=
  let compared : Except Error Bool := do
    let expected ← expectedSignature hash fetch m
    let provided ← parameter m "signature".toList
    return Base64.encode expected = provided
  match compared with
  | .ok b => .ok b
  | .error (.exception message) => .error (.exception message)
  | .error _ => .ok false

def hasSignatureHeader (m : Message) : Bool :=
  (m.header "Signature".toList).isSome || (m.header "Authorization".toList).isSome

/-- `Verifier::isValid`. -/
def isValid (hash : HashHmac) (fetch : KeyStoreInterface) (m : Message) : Except Error Bool :=
  if hasSignatureHeader m then signatureMatches hash fetch m else .ok false

/-! ## Contexts -/

/-- What a context is made of. -/
structure ContextArgs where
  keys : Option (Assoc.Object Str Str)
  keyStore : Option KeyStoreInterface
  algorithm : Option Str
  headers : List Str
  signingKeyId : Option Str

structure Context where
  algorithmName : Option Str
  headers : List Str
  /-- The key store that was given, or the one that `keyStore` makes of the keys. -/
  keyStore : KeyStoreInterface
  signingKeyId : Option Str

/-- The one key of a context is the one it signs with. -/
def implicitKeyId (keys : Option (Assoc.Object Str Str)) : Option Str :=
  match keys with
  | some ⟨[(id, _)], _⟩ => some id
  | _ => none

def Context.ofArgs (args : ContextArgs) : Except Error Context :=
  match args.keys, args.keyStore with
  | some _, some _ => .error (.exception "HttpSignatures\\Context accepts keys or keyStore but not both".toList)
  | keys, keyStore => .ok
    { algorithmName := args.algorithm
      headers := args.headers
      keyStore := keyStore.getD (KeyStore.ofKeys (keys.getD .empty)).fetch
      signingKeyId := args.signingKeyId.or (implicitKeyId keys) }

def Context.signingKey (c : Context) : Except Error Key :=
  match c.signingKeyId with
  | some id => c.keyStore id
  | none => .error (.exception "no implicit or specified signing key".toList)

def Context.signer (c : Context) : Except Error Signer := do
  return ⟨← c.signingKey, ← createAlgorithm (c.algorithmName.getD []), .ofNames c.headers⟩

/-- The context that `RestClient::createGuzzleClient` makes. -/
def clientArgs (apiKey apiSecret : Str) : ContextArgs where
  keys := some (Assoc.Object.empty.set apiKey apiSecret)
  keyStore := none
  algorithm := some "hmac-sha256".toList
  headers := ["(request-target)".toList, "Content-MD5".toList, "Date".toList]
  signingKeyId := none

/-- `$context->verifier()->isValid($message)`. -/
def Context.isValid (hash : HashHmac) (c : Context) (m : Message) : Except Error Bool :=
  HttpSignatures.isValid hash c.keyStore m

end HttpSignatures
