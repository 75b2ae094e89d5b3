import CommandBridge.Error.Kind

/-!
# Status codes with a name

The native library publishes a list of named status codes.  Most of them have an `ErrorKind` of
their own; the runs of "invalid parameter" codes get theirs from parameter ranges instead.

* `NamedCode` — a row of the list;
* `NamedCode.published` — the list, by ascending status;
* `NamedCode.ofStatus?` — the row of a status;
* `publishedKind?` — the kind of a status that has one of its own;
* `Subsystem`, `Subsystem.ofStatus` — the part of the library that a status belongs to, told by its
  hundreds.
-/

namespace CommandBridge

/-- Success is the status `0`; every other status is a failure. -/
def successStatus : Int32 := 0

/-! ### The published list -/

/-- A published status code: its number, its name and the kind of error it means, if it has one of
its own. -/
structure NamedCode where
  status : Int32
  name : String
  kind : Option ErrorKind
  deriving DecidableEq, Repr

namespace NamedCode

/-- The published list, by ascending status. -/
def published : List NamedCode := [
  ⟨0, "Success", none⟩,
  ⟨100, "CommonInvalidParam1", none⟩,
  ⟨101, "CommonInvalidParam2", none⟩,
  ⟨102, "CommonInvalidParam3", none⟩,
  ⟨103, "CommonInvalidParam4", none⟩,
  ⟨104, "CommonInvalidParam5", none⟩,
  ⟨105, "CommonInvalidParam6", none⟩,
  ⟨106, "CommonInvalidParam7", none⟩,
  ⟨107, "CommonInvalidParam8", none⟩,
  ⟨108, "CommonInvalidParam9", none⟩,
  ⟨109, "CommonInvalidParam10", none⟩,
  ⟨110, "CommonInvalidParam11", none⟩,
  ⟨111, "CommonInvalidParam12", none⟩,
  ⟨112, "CommonInvalidState", some .invalidState⟩,
  ⟨113, "CommonInvalidStructure", some .invalidStructure⟩,
  ⟨114, "CommonIOError", some .ioFailure⟩,
  ⟨115, "CommonInvalidParam13", none⟩,
  ⟨116, "CommonInvalidParam14", none⟩,
  ⟨117, "CommonInvalidParam15", none⟩,
  ⟨118, "CommonInvalidParam16", none⟩,
  ⟨119, "CommonInvalidParam17", none⟩,
  ⟨120, "CommonInvalidParam18", none⟩,
  ⟨121, "CommonInvalidParam19", none⟩,
  ⟨122, "CommonInvalidParam20", none⟩,
  ⟨123, "CommonInvalidParam21", none⟩,
  ⟨124, "CommonInvalidParam22", none⟩,
  ⟨125, "CommonInvalidParam23", none⟩,
  ⟨126, "CommonInvalidParam24", none⟩,
  ⟨127, "CommonInvalidParam25", none⟩,
  ⟨128, "CommonInvalidParam26", none⟩,
  ⟨129, "CommonInvalidParam27", none⟩,
  ⟨200, "WalletInvalidHandle", some .walletInvalidHandle⟩,
  ⟨201, "WalletUnknownTypeError", some .walletUnknownType⟩,
  ⟨202, "WalletTypeAlreadyRegisteredError", some .walletTypeAlreadyRegistered⟩,
  ⟨203, "WalletAlreadyExistsError", some .walletAlreadyExists⟩,
  ⟨204, "WalletNotFoundError", some .walletNotFound⟩,
  ⟨205, "WalletIncompatiblePoolError", some .walletIncompatiblePool⟩,
  ⟨206, "WalletAlreadyOpenedError", some .walletAlreadyOpened⟩,
  ⟨207, "WalletAccessFailed", some .walletAccessFailed⟩,
  ⟨208, "WalletInputError", none⟩,
  ⟨209, "WalletDecodingError", none⟩,
  ⟨210, "WalletStorageError", some .walletStorageError⟩,
  ⟨211, "WalletEncryptionError", none⟩,
  ⟨212, "WalletItemNotFound", some .walletItemNotFound⟩,
  ⟨213, "WalletItemAlreadyExists", some .walletItemAlreadyExists⟩,
  ⟨214, "WalletQueryError", some .walletInvalidQuery⟩,
  ⟨300, "PoolLedgerNotCreatedError", some .poolConfigNotCreated⟩,
  ⟨301, "PoolLedgerInvalidPoolHandle", some .poolInvalidHandle⟩,
  ⟨302, "PoolLedgerTerminated", some .poolTerminated⟩,
  ⟨303, "LedgerNoConsensusError", some .ledgerNoConsensus⟩,
  ⟨304, "LedgerInvalidTransaction", some .ledgerInvalidTransaction⟩,
  ⟨305, "LedgerSecurityError", some .ledgerSecurityError⟩,
  ⟨306, "PoolLedgerConfigAlreadyExistsError", some .poolConfigAlreadyExists⟩,
  ⟨307, "PoolLedgerTimeout", none⟩,
  ⟨308, "PoolIncompatibleProtocolVersion", none⟩,
  ⟨309, "LedgerNotFound", none⟩,
  ⟨400, "AnoncredsRevocationRegistryFullError", some .revocationRegistryFull⟩,
  ⟨401, "AnoncredsInvalidUserRevocId", some .invalidRevocationIndex⟩,
  ⟨404, "AnoncredsMasterSecretDuplicateNameError", some .duplicateMasterSecretName⟩,
  ⟨405, "AnoncredsProofRejected", some .proofRejected⟩,
  ⟨406, "AnoncredsCredentialRevoked", some .credentialRevoked⟩,
  ⟨407, "AnoncredsCredDefAlreadyExistsError", some .credentialDefinitionAlreadyExists⟩,
  ⟨500, "UnknownCryptoTypeError", some .unknownCryptoError⟩,
  ⟨600, "DidAlreadyExistsError", none⟩,
  ⟨700, "PaymentUnknownMethodError", some .unknownPaymentMethod⟩,
  ⟨701, "PaymentIncompatibleMethodsError", some .incompatiblePayment⟩,
  ⟨702, "PaymentInsufficientFundsError", some .insufficientFunds⟩,
  ⟨703, "PaymentSourceDoesNotExistError", some .paymentSourceNotFound⟩,
  ⟨704, "PaymentOperationNotSupportedError", some .paymentOperationNotSupported⟩,
  ⟨705, "PaymentExtraFundsError", some .extraFunds⟩,
  ⟨706, "TransactionNotAllowedError", none⟩]

/-- The row of a published status. -/
def ofStatus? (status : Int32) : Option NamedCode :=
  published.find? (fun row => row.status == status)

/-- The row stands for success. -/
def isSuccess (row : NamedCode) : Bool :=
  row.status == successStatus

end NamedCode

/-- The kind of error that a published status means by itself. -/
def publishedKind? (status : Int32) : Option ErrorKind :=
  (NamedCode.ofStatus? status).bind NamedCode.kind

/-! ### Subsystems -/

/-- A part of the native library. -/
inductive Subsystem where
  | success
  | common
  | wallet
  | ledger
  | anoncreds
  | crypto
  | did
  | payment
  | unknown
  deriving DecidableEq, Repr

namespace Subsystem

/-- The name that reports use. -/
def name : Subsystem → String
  | .success => "success"
  | .common => "common"
  | .wallet => "wallet"
  | .ledger => "ledger"
  | .anoncreds => "anoncreds"
  | .crypto => "crypto"
  | .did => "did"
  | .payment => "payment"
  | .unknown => "unknown"

/-- Each hundred from `100` to `700` is a subsystem; `0` is success and all else unknown. -/
def ofStatus (status : Int32) : Subsystem :=
  if status = successStatus then .success
  else match status.toInt / 100 with
    | 1 => .common
    | 2 => .wallet
    | 3 => .ledger
    | 4 => .anoncreds
    | 5 => .crypto
    | 6 => .did
    | 7 => .payment
    | _ => .unknown

end Subsystem

end CommandBridge
