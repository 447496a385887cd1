import Mathlib.Data.List.Sort
import Blocktrail.Lib.Text

/-! # Networks, scripts and addresses

What the SDKs use of `bitcoinjs-lib`, as bundled with the library.
-/

open Text

namespace Bitcoin

abbrev Byte := UInt8
abbrev Bytes := List Byte

/-! ## Errors -/

/-- An `Error` object: `name` and `message`. -/
structure JsError where
  name : Str
  message : Str
deriving DecidableEq

/-! ## Networks -/

/-- The entries of `bitcoin.networks` that the SDK picks from. -/
inductive Network
  | bitcoin
  | testnet
  | bitcoincash
  | bitcoincashtestnet
deriving DecidableEq

namespace Network

def isBitcoinCash : Network → Bool
  | bitcoincash | bitcoincashtestnet => true
  | bitcoin | testnet => false

def cashAddrPrefix : Network → Option Str
  | bitcoincash => some "bitcoincash"
  | bitcoincashtestnet => some "bchtest"
  | bitcoin | testnet => none

def bech32 : Network → Option Str
  | bitcoin => some "bc"
  | testnet => some "tb"
  | bitcoincash | bitcoincashtestnet => none

def pubKeyHash : Network → Byte
  | bitcoin | bitcoincash => 0x00
  | testnet | bitcoincashtestnet => 0x6f

def scriptHash : Network → Byte
  | bitcoin | bitcoincash => 0x05
  | testnet | bitcoincashtestnet => 0xc4

end Network

/-- The network of the flags `bitcoinCash` and `testnet`. -/
def networkOf (bitcoinCash testnet : Bool) : Network :=
  if bitcoinCash then
    if testnet then .bitcoincashtestnet else .bitcoincash
  else
    if testnet then .testnet else .bitcoin

/-! ## Keys and hashes -/

/-- A compressed public key: 33 bytes, the first 2 or 3. -/
structure PubKey where
  bytes : Bytes
  length_eq : bytes.length = 33
  compressed : bytes.head? = some 0x02 ∨ bytes.head? = some 0x03
deriving DecidableEq

theorem PubKey.ext_bytes {a b : PubKey} (h : a.bytes = b.bytes) : a = b := by
  cases a; cases b; cases h; rfl

abbrev Hash160 := { h : Bytes // h.length = 20 }
abbrev Hash256 := { h : Bytes // h.length = 32 }

structure Hashes where
  hash160 : Bytes → Hash160
  sha256 : Bytes → Hash256

/-! ## Script encoding -/

inductive Chunk
  | op (code : Byte)
  | data (buffer : Bytes)

def OP_0 : Byte := 0
def OP_PUSHDATA1 : Byte := 76
def OP_PUSHDATA2 : Byte := 77
def OP_PUSHDATA4 : Byte := 78
def OP_1NEGATE : Byte := 79
def OP_INT_BASE : Byte := 80
def OP_RETURN : Byte := 106
def OP_DUP : Byte := 118
def OP_EQUAL : Byte := 135
def OP_EQUALVERIFY : Byte := 136
def OP_HASH160 : Byte := 169
def OP_CHECKSIG : Byte := 172
def OP_CHECKMULTISIG : Byte := 174

def asMinimalOP : Bytes → Option Byte
  | [] => some OP_0
  | [b] =>
    if 1 ≤ b ∧ b ≤ 16 then some (OP_INT_BASE + b)
    else if b = 0x81 then some OP_1NEGATE
    else none
  | _ => none

/-- `pushdata.encode`: the length, little-endian, after the opcode its size needs. -/
def pushdata (n : Nat) : Bytes :=
  if n < 76 then [UInt8.ofNat n]
  else if n ≤ 0xff then [OP_PUSHDATA1, UInt8.ofNat n]
  else if n ≤ 0xffff then [OP_PUSHDATA2, UInt8.ofNat n, UInt8.ofNat (n / 256)]
  else [OP_PUSHDATA4, UInt8.ofNat n, UInt8.ofNat (n / 256), UInt8.ofNat (n / 65536), UInt8.ofNat (n / 16777216)]

def compileChunk : Chunk → Bytes
  | .op code => [code]
  | .data buffer =>
    match asMinimalOP buffer with
    | some opcode => [opcode]
    | none => pushdata buffer.length ++ buffer

/-- `bscript.compile`. -/
def compile (chunks : List Chunk) : Bytes := chunks.flatMap compileChunk

/-- `multisig.output.encode(m, pubKeys)`, with `m` at most the number of keys. -/
def multisigOutput (m : Byte) (pubKeys : List PubKey) : Bytes :=
  compile (.op (OP_INT_BASE + m) :: pubKeys.map (.data ·.bytes) ++
    [.op (OP_INT_BASE + UInt8.ofNat pubKeys.length), .op OP_CHECKMULTISIG])

def scriptHashOutput (scriptHash : Hash160) : Bytes :=
  compile [.op OP_HASH160, .data scriptHash.val, .op OP_EQUAL]

def pubKeyHashOutput (pubKeyHash : Hash160) : Bytes :=
  compile [.op OP_DUP, .op OP_HASH160, .data pubKeyHash.val, .op OP_EQUALVERIFY, .op OP_CHECKSIG]

def witnessScriptHashOutput (scriptHash : Hash256) : Bytes :=
  compile [.op OP_0, .data scriptHash.val]

def witnessPubKeyHashOutput (pubKeyHash : Hash160) : Bytes :=
  compile [.op OP_0, .data pubKeyHash.val]

theorem compileChunk_data {b : Bytes} (h : 2 ≤ b.length) (h' : b.length < 76) :
    compileChunk (.data b) = UInt8.ofNat b.length :: b := by
  match b, h with
  | x :: y :: t, _ => simp only [compileChunk, asMinimalOP, pushdata, if_pos h', List.singleton_append]

theorem scriptHashOutput_eq (h : Hash160) :
    scriptHashOutput h = OP_HASH160 :: 0x14 :: (h.val ++ [OP_EQUAL]) := by
  have hl := h.property
  have hd : compileChunk (.data h.val) = 0x14 :: h.val := by
    rw [compileChunk_data (by omega) (by omega), hl]
    rfl
  simp only [scriptHashOutput, compile, List.flatMap_cons, List.flatMap_nil, hd]
  rfl

/-! ## Output templates -/

def isPubKeyHashOutput (s : Bytes) : Bool :=
  s.length == 25 && s[0]? == some OP_DUP && s[1]? == some OP_HASH160 && s[2]? == some 0x14 &&
    s[23]? == some OP_EQUALVERIFY && s[24]? == some OP_CHECKSIG

def isScriptHashOutput (s : Bytes) : Bool :=
  s.length == 23 && s[0]? == some OP_HASH160 && s[1]? == some 0x14 && s[22]? == some OP_EQUAL

def isWitnessPubKeyHashOutput (s : Bytes) : Bool :=
  s.length == 22 && s[0]? == some OP_0 && s[1]? == some 0x14

def isWitnessScriptHashOutput (s : Bytes) : Bool :=
  s.length == 34 && s[0]? == some OP_0 && s[1]? == some 0x20

theorem isScriptHashOutput_scriptHashOutput (h : Hash160) :
    isScriptHashOutput (scriptHashOutput h) = true := by
  have hl := h.property
  simp [isScriptHashOutput, scriptHashOutput_eq, hl]

theorem not_isPubKeyHashOutput_scriptHashOutput (h : Hash160) :
    isPubKeyHashOutput (scriptHashOutput h) = false := by
  have hl := h.property
  simp [isPubKeyHashOutput, scriptHashOutput_eq, hl]

/-! ## Addresses -/

/-- The text encodings of addresses, `bs58check`, `cashaddress` and `bech32`, and of scripts. -/
structure AddressCodec where
  toASM : Bytes → Str
  toBase58Check : Bytes → Byte → Str
  toCashAddress : Bytes → Str → Str → Str
  toBech32 : Bytes → Nat → Str → Str

def slice (s : Bytes) (i j : Nat) : Bytes := (s.take j).drop i

def fromOutputScript (codec : AddressCodec) (outputScript : Bytes) (network : Network)
    (useNewCashAddress : Bool) : Except JsError Str :=
  let noMatch : JsError := ⟨"Error", codec.toASM outputScript ++ " has no matching Address"⟩
  let witness : Except JsError Str :=
    match network.bech32 with
    | some prefix' =>
      if isWitnessPubKeyHashOutput outputScript then .ok (codec.toBech32 (slice outputScript 2 22) 0 prefix')
      else if isWitnessScriptHashOutput outputScript then .ok (codec.toBech32 (slice outputScript 2 34) 0 prefix')
      else .error noMatch
    | none => .error noMatch
  match network.cashAddrPrefix, useNewCashAddress with
  | some prefix', true =>
    if isPubKeyHashOutput outputScript then .ok (codec.toCashAddress (slice outputScript 3 23) "pubkeyhash" prefix')
    else if isScriptHashOutput outputScript then .ok (codec.toCashAddress (slice outputScript 2 22) "scripthash" prefix')
    else witness
  | _, _ =>
    if isPubKeyHashOutput outputScript then .ok (codec.toBase58Check (slice outputScript 3 23) network.pubKeyHash)
    else if isScriptHashOutput outputScript then .ok (codec.toBase58Check (slice outputScript 2 22) network.scriptHash)
    else witness

theorem fromOutputScript_scriptHashOutput (codec : AddressCodec) (h : Hash160) (network : Network) (b : Bool) :
    ∃ address, fromOutputScript codec (scriptHashOutput h) network b = .ok address := by
  simp only [fromOutputScript, isScriptHashOutput_scriptHashOutput, not_isPubKeyHashOutput_scriptHashOutput]
  split <;> exact ⟨_, rfl⟩

end Bitcoin
