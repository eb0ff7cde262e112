import TxLens.BitArray
import TxLens.Envelope
import TxLens.Event
/-!
# Transactions and their results

A transaction is a body, which holds the messages, and the authorising information, which says who
signs and what fee they offer. A node reports it together with the result of its execution.
-/

namespace TxLens

open Wire

structure Coin where
  denom : String
  amount : String
  deriving DecidableEq

instance : Object Coin where
  type := .coin
  ofMessage m := ⟨m.text 1, m.text 2⟩
  toMessage c := .ofText 1 c.denom ++ .ofText 2 c.amount

structure TxBody where
  messages : List Envelope
  memo : String
  timeoutHeight : UInt64

instance : Object TxBody where
  type := .txBody
  ofMessage m := ⟨Object.subs 1 m, m.text 2, m.word 3⟩
  toMessage b := Object.ofSubs 1 b.messages ++ .ofText 2 b.memo ++ .ofWord 3 b.timeoutHeight

/-! ## How a signer signs -/

/-- One signature in some mode, or several by members of a multisig key, each with a mode of its own;
the bits say which members signed. -/
inductive ModeInfo where
  | unset
  | single (mode : Int32)
  | multi (bits : Option BitArray) (modes : List ModeInfo)

namespace ModeInfo

/-- Reads the alternative that stands last. -/
def ofMessage (m : Message) : ModeInfo :=
  match h : m.lastChoice with
  | none => .unset
  | some (1, inner) => .single (inner.word 1).toUInt32.toInt32
  | some (_, inner) =>
    .multi (Object.sub? 1 inner) ((Message.messages 2 inner).attach.map fun ⟨sub, hs⟩ =>
      have : Message.size sub < Message.size m :=
        Nat.lt_trans (Message.size_lt_of_mem_messages hs) (Message.size_lt_of_lastChoice h)
      ofMessage sub)
termination_by Message.size m

mutual

def toMessage : ModeInfo → Message
  | .unset => []
  | .single mode => [.message 1 (Message.ofWord 1 mode.toInt64.toUInt64)]
  | .multi bits modes => [.message 2 (Object.ofSub? 1 bits ++ ofModes modes)]

def ofModes : List ModeInfo → Message
  | [] => []
  | m :: ms => .message 2 m.toMessage :: ofModes ms

end

instance : Object ModeInfo where
  type := .modeInfo
  ofMessage := ofMessage
  toMessage := toMessage

end ModeInfo

structure SignerInfo where
  publicKey : Option Envelope
  modeInfo : Option ModeInfo
  sequence : UInt64

instance : Object SignerInfo where
  type := .signerInfo
  ofMessage m := ⟨Object.sub? 1 m, Object.sub? 2 m, m.word 3⟩
  toMessage s := Object.ofSub? 1 s.publicKey ++ Object.ofSub? 2 s.modeInfo ++ .ofWord 3 s.sequence

/-- Which members of a multisig key signed, if the signer says so. -/
def SignerInfo.signedBits? (s : SignerInfo) : Option BitArray :=
  match s.modeInfo with
  | some (.multi bits _) => bits
  | _ => none

/-! ## Transactions -/

structure FeeOffer where
  amount : List Coin
  gasLimit : UInt64
  payer : String
  granter : String

instance : Object FeeOffer where
  type := .fee
  ofMessage m := ⟨Object.subs 1 m, m.word 2, m.text 3, m.text 4⟩
  toMessage f := Object.ofSubs 1 f.amount ++ .ofWord 2 f.gasLimit ++ .ofText 3 f.payer ++
    .ofText 4 f.granter

structure AuthInfo where
  signerInfos : List SignerInfo
  fee : Option FeeOffer

instance : Object AuthInfo where
  type := .authInfo
  ofMessage m := ⟨Object.subs 1 m, Object.sub? 2 m⟩
  toMessage a := Object.ofSubs 1 a.signerInfos ++ Object.ofSub? 2 a.fee

structure Tx where
  body : Option TxBody
  authInfo : Option AuthInfo
  signatures : List Bytes

instance : Object Tx where
  type := .tx
  ofMessage m := ⟨Object.sub? 1 m, Object.sub? 2 m, m.byteStrings 3⟩
  toMessage t := Object.ofSub? 1 t.body ++ Object.ofSub? 2 t.authInfo ++
    .ofByteStrings 3 t.signatures

/-! ## Results -/

/-- The events of one message, as older chain versions report them. -/
structure MessageLog where
  msgIndex : UInt32
  log : String
  events : List Event

instance : Object MessageLog where
  type := .messageLog
  ofMessage m := ⟨(m.word 1).toUInt32, m.text 2, Object.subs 3 m⟩
  toMessage l := .ofWord 1 l.msgIndex.toUInt64 ++ .ofText 2 l.log ++ Object.ofSubs 3 l.events

/-- The result of executing a transaction; `tx` is its packed copy. -/
structure TxResponse where
  height : Int64
  txhash : String
  codespace : String
  code : UInt32
  rawLog : String
  logs : List MessageLog
  gasWanted : Int64
  gasUsed : Int64
  tx : Option Envelope
  timestamp : String
  events : List Event

instance : Object TxResponse where
  type := .txResponse
  ofMessage m :=
    { height := (m.word 1).toInt64
      txhash := m.text 2
      codespace := m.text 3
      code := (m.word 4).toUInt32
      rawLog := m.text 6
      logs := Object.subs 7 m
      gasWanted := (m.word 9).toInt64
      gasUsed := (m.word 10).toInt64
      tx := Object.sub? 11 m
      timestamp := m.text 12
      events := Object.subs 13 m }
  toMessage r := .ofWord 1 r.height.toUInt64 ++ .ofText 2 r.txhash ++ .ofText 3 r.codespace ++
    .ofWord 4 r.code.toUInt64 ++ .ofText 6 r.rawLog ++ Object.ofSubs 7 r.logs ++
    .ofWord 9 r.gasWanted.toUInt64 ++ .ofWord 10 r.gasUsed.toUInt64 ++ Object.ofSub? 11 r.tx ++
    .ofText 12 r.timestamp ++ Object.ofSubs 13 r.events

/-- What a node answers to a query for a transaction. -/
structure GetTxResponse where
  tx : Option Tx
  txResponse : Option TxResponse

instance : Object GetTxResponse where
  type := .getTxResponse
  ofMessage m := ⟨Object.sub? 1 m, Object.sub? 2 m⟩
  toMessage r := Object.ofSub? 1 r.tx ++ Object.ofSub? 2 r.txResponse

end TxLens
