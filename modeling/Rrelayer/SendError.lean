import Mathlib.Data.List.Infix

/-! Errors of a send, and how the queue classifies a node's message. -/
namespace Rrelayer

/-- How the queue must react to a node's send or estimate error. -/
inductive SendErrorClass where
  | insufficientFunds | permanentRejection | alreadyKnown | nonceConflict | underpriced | transient
  deriving DecidableEq, Repr

/-- One character of `to_lowercase`. The Kelvin sign and the dotted capital I are the only
characters outside ASCII with an ASCII letter in their lowercase; what the others become plays no
part, as every wording looked for is ASCII. -/
def lowercaseChar (c : Char) : List Char :=
  if c = Char.ofNat 0x212A then ['k']
  else if c = Char.ofNat 0x130 then ['i', Char.ofNat 0x307]
  else [c.toLower]

def toLowercase (msg : String) : String := String.ofList (msg.toList.flatMap lowercaseChar)

def contains (msg wording : String) : Bool := decide (wording.toList <:+: msg.toList)

def permanentWordings : List String :=
  ["execution reverted", "invalid opcode", "intrinsic gas too low", "exceeds block gas limit",
    "oversized data", "max initcode size exceeded", "maxtxsizeexceeded"]

def knownWordings : List String :=
  ["already known", "alreadyknown", "known transaction", "already imported"]

def nonceWordings : List String :=
  ["nonce too low", "nonce is too low", "invalid nonce", "nonce has already been used", "oldnonce"]

def fundsWordings : List String :=
  ["insufficient funds", "insufficientfunds", "gas required exceeds allowance", "overshot"]

def underpricedWordings : List String := ["underpriced", "feetoolow"]

/-- Classifies a lowercased node message. A revert reason can quote any wording, so permanent
rejections are looked for first. -/
def classifySendError (errorMsg : String) : SendErrorClass :=
  if permanentWordings.any (contains errorMsg) then .permanentRejection
  else if knownWordings.any (contains errorMsg) then .alreadyKnown
  else if nonceWordings.any (contains errorMsg) then .nonceConflict
  else if fundsWordings.any (contains errorMsg) then .insufficientFunds
  else if underpricedWordings.any (contains errorMsg) then .underpriced
  else .transient

example : classifySendError "execution reverted: fwd: nonce too low" = .permanentRejection := by
  decide +kernel

/-- The class of an error as the queue displays it. -/
def errorClass (error : String) : SendErrorClass := classifySendError (toLowercase error)

/-- What cancel and replace look for instead of the class. -/
def competitorNonceWordings : List String :=
  ["nonce too low", "nonce is too low", "invalid nonce", "nonce has already been used",
    "already known"]

def isCompetitorNonceIssue (error : String) : Bool :=
  competitorNonceWordings.any (contains (toLowercase error))

inductive SendTransactionGasPriceError where
  | gasCalculationError | blobGasCalculationError | noLastSentGas
  deriving DecidableEq, Repr

/-- `TransactionQueueSendTransactionError`; errors of the node and the wallet are their text. -/
inductive TransactionQueueSendTransactionError where
  | gasPriceTooHigh
  | gasCalculationError
  | transactionSendError (error : String)
  | couldNotUpdateTransactionDb
  | sendTransactionGasPriceError (error : SendTransactionGasPriceError)
  | transactionEstimateGasError (error : String)
  | transactionConversionError (error : String)
  | safeProxyError (error : String)
  | noTransactionInQueue
  deriving DecidableEq, Repr

end Rrelayer
