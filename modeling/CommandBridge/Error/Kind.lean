/-!
# Kinds of error

What a caller can tell apart when a command fails.  The set is closed: recovery is a `match`.

* `ErrorKind` — one constructor for each cause; a rejected argument carries its position and an
  unknown status carries the status itself;
* `ErrorKind.name` — the snake-case name, as configurations write it;
* `ErrorKind.ofName?` — the kind with a given name;
* `ErrorKind.render` — the name followed by the parameter of the two kinds that have one;
* `ErrorKind.description` — the sentence shown when an error carries no text of its own.

`ofName?_name` says that every kind is found again under its name, up to its parameter, and
`name_ofName?` that nothing else is found.
-/

namespace CommandBridge

/-- Why a command failed. -/
inductive ErrorKind where
  /-- The argument at position `index`, counted from one, was rejected; `0` if the position is
  not known. -/
  | invalidParameter (index : UInt32)
  -- the library as a whole
  | invalidState
  | invalidStructure
  | ioFailure
  -- wallets
  | walletInvalidHandle
  | walletUnknownType
  | walletTypeAlreadyRegistered
  | walletAlreadyExists
  | walletNotFound
  | walletIncompatiblePool
  | walletAlreadyOpened
  | walletAccessFailed
  | walletItemNotFound
  | walletItemAlreadyExists
  | walletInvalidQuery
  | walletStorageError
  -- pools
  | poolConfigNotCreated
  | poolInvalidHandle
  | poolTerminated
  | poolConfigAlreadyExists
  -- the ledger
  | ledgerNoConsensus
  | ledgerInvalidTransaction
  | ledgerSecurityError
  -- credentials
  | revocationRegistryFull
  | invalidRevocationIndex
  | duplicateMasterSecretName
  | proofRejected
  | credentialRevoked
  | credentialDefinitionAlreadyExists
  | unknownCryptoError
  -- payments
  | extraFunds
  | incompatiblePayment
  | insufficientFunds
  | paymentOperationNotSupported
  | paymentSourceNotFound
  | unknownPaymentMethod
  /-- A completion arrived for a handle with no pending command: the native side broke the
  calling convention. -/
  | danglingCompletion
  /-- The caller stopped waiting before the completion arrived. -/
  | timeout
  /-- The correlator was shut down while the command was pending. -/
  | shutDown
  /-- A status that the table in force does not know. -/
  | unmapped (code : Int32)
  deriving DecidableEq, Repr

namespace ErrorKind

/-- The name under which configurations and reports know a kind; parameters are left out. -/
def name : ErrorKind → String
  | .invalidParameter _ => "invalid_parameter"
  | .invalidState => "invalid_state"
  | .invalidStructure => "invalid_structure"
  | .ioFailure => "io_failure"
  | .walletInvalidHandle => "wallet_invalid_handle"
  | .walletUnknownType => "wallet_unknown_type"
  | .walletTypeAlreadyRegistered => "wallet_type_already_registered"
  | .walletAlreadyExists => "wallet_already_exists"
  | .walletNotFound => "wallet_not_found"
  | .walletIncompatiblePool => "wallet_incompatible_pool"
  | .walletAlreadyOpened => "wallet_already_opened"
  | .walletAccessFailed => "wallet_access_failed"
  | .walletItemNotFound => "wallet_item_not_found"
  | .walletItemAlreadyExists => "wallet_item_already_exists"
  | .walletInvalidQuery => "wallet_invalid_query"
  | .walletStorageError => "wallet_storage_error"
  | .poolConfigNotCreated => "pool_config_not_created"
  | .poolInvalidHandle => "pool_invalid_handle"
  | .poolTerminated => "pool_terminated"
  | .poolConfigAlreadyExists => "pool_config_already_exists"
  | .ledgerNoConsensus => "ledger_no_consensus"
  | .ledgerInvalidTransaction => "ledger_invalid_transaction"
  | .ledgerSecurityError => "ledger_security_error"
  | .revocationRegistryFull => "revocation_registry_full"
  | .invalidRevocationIndex => "invalid_revocation_index"
  | .duplicateMasterSecretName => "duplicate_master_secret_name"
  | .proofRejected => "proof_rejected"
  | .credentialRevoked => "credential_revoked"
  | .credentialDefinitionAlreadyExists => "credential_definition_already_exists"
  | .unknownCryptoError => "unknown_crypto_error"
  | .extraFunds => "extra_funds"
  | .incompatiblePayment => "incompatible_payment"
  | .insufficientFunds => "insufficient_funds"
  | .paymentOperationNotSupported => "payment_operation_not_supported"
  | .paymentSourceNotFound => "payment_source_not_found"
  | .unknownPaymentMethod => "unknown_payment_method"
  | .danglingCompletion => "dangling_completion"
  | .timeout => "timeout"
  | .shutDown => "shut_down"
  | .unmapped _ => "unmapped"

/-- Every kind once, in the order of declaration, with the parameters `0`. -/
def all : List ErrorKind :=
  [.invalidParameter 0, .invalidState, .invalidStructure, .ioFailure, .walletInvalidHandle,
   .walletUnknownType, .walletTypeAlreadyRegistered, .walletAlreadyExists, .walletNotFound,
   .walletIncompatiblePool, .walletAlreadyOpened, .walletAccessFailed, .walletItemNotFound,
   .walletItemAlreadyExists, .walletInvalidQuery, .walletStorageError, .poolConfigNotCreated,
   .poolInvalidHandle, .poolTerminated, .poolConfigAlreadyExists, .ledgerNoConsensus,
   .ledgerInvalidTransaction, .ledgerSecurityError, .revocationRegistryFull,
   .invalidRevocationIndex, .duplicateMasterSecretName, .proofRejected, .credentialRevoked,
   .credentialDefinitionAlreadyExists, .unknownCryptoError, .extraFunds, .incompatiblePayment,
   .insufficientFunds, .paymentOperationNotSupported, .paymentSourceNotFound,
   .unknownPaymentMethod, .danglingCompletion, .timeout, .shutDown, .unmapped 0]

/-- The kind with exactly this name; kinds with a parameter come back with `0`. -/
def ofName? (s : String) : Option ErrorKind :=
  all.find? (fun k => k.name == s)

/-- The name, and in parentheses the argument position or the status where there is one. -/
def render : ErrorKind → String
  | .invalidParameter index => s!"invalid_parameter({index})"
  | .unmapped code => s!"unmapped({code})"
  | kind => kind.name

/-- The sentence for people that stands in for a missing message. -/
def description : ErrorKind → String
  | .invalidParameter _ => "A parameter passed to the SDK was invalid."
  | .invalidState => "The SDK library experienced an unexpected internal error."
  | .invalidStructure => "A value being processed is not valid."
  | .ioFailure => "An IO error occurred."
  | .walletInvalidHandle => "The wallet handle is invalid."
  | .walletUnknownType => "The wallet type is not registered."
  | .walletTypeAlreadyRegistered => "A wallet type with the same name is already registered."
  | .walletAlreadyExists => "A wallet with the same name already exists."
  | .walletNotFound => "The wallet was not found."
  | .walletIncompatiblePool => "The wallet is not compatible with the pool."
  | .walletAlreadyOpened => "The wallet is already open."
  | .walletAccessFailed => "Access to the wallet was denied."
  | .walletItemNotFound => "The requested wallet item was not found."
  | .walletItemAlreadyExists => "A wallet item with the same id already exists."
  | .walletInvalidQuery => "The wallet query is invalid."
  | .walletStorageError => "The wallet storage backend failed."
  | .poolConfigNotCreated => "The pool ledger configuration was not created."
  | .poolInvalidHandle => "The pool handle is invalid."
  | .poolTerminated => "The pool ledger was terminated."
  | .poolConfigAlreadyExists => "A pool ledger configuration with the same name already exists."
  | .ledgerNoConsensus => "No consensus was reached during the ledger operation."
  | .ledgerInvalidTransaction => "The ledger rejected the transaction."
  | .ledgerSecurityError => "The transaction was not permitted by the ledger."
  | .revocationRegistryFull => "The revocation registry is full."
  | .invalidRevocationIndex => "The user revocation index is invalid."
  | .duplicateMasterSecretName => "A master secret with the same name already exists."
  | .proofRejected => "The proof was rejected."
  | .credentialRevoked => "The credential has been revoked."
  | .credentialDefinitionAlreadyExists =>
      "A credential definition already exists for the issuer and schema."
  | .unknownCryptoError => "An unknown crypto format was used."
  | .extraFunds => "The payment inputs exceed the outputs plus fees."
  | .incompatiblePayment => "The payment methods are incompatible."
  | .insufficientFunds => "There are insufficient funds for the payment."
  | .paymentOperationNotSupported => "The payment method does not support the operation."
  | .paymentSourceNotFound => "The payment source does not exist."
  | .unknownPaymentMethod => "The payment method is not registered."
  | .danglingCompletion => "A completion arrived for a handle that is not pending."
  | .timeout => "The operation timed out before the SDK completed it."
  | .shutDown => "The operation was abandoned because the correlator shut down."
  | .unmapped _ => "An unmapped error was returned by the SDK."

/-- Kinds that report a breach of the calling convention rather than an ordinary failure. -/
def isIntegrityViolation : ErrorKind → Bool
  | .danglingCompletion => true
  | _ => false

/-! ### Names and kinds -/

/-- The kind with its parameter set to `0`, which is what its name remembers of it. -/
def withoutParameter : ErrorKind → ErrorKind
  | .invalidParameter _ => .invalidParameter 0
  | .unmapped _ => .unmapped 0
  | kind => kind

@[simp] theorem name_withoutParameter (kind : ErrorKind) :
    kind.withoutParameter.name = kind.name := by
  cases kind <;> rfl

theorem withoutParameter_mem_all (kind : ErrorKind) : kind.withoutParameter ∈ all := by
  cases kind <;> simp [withoutParameter, all]

theorem ofName?_name_of_mem_all : ∀ kind ∈ all, ofName? kind.name = some kind := by
  decide +kernel

theorem ofName?_name (kind : ErrorKind) : ofName? kind.name = some kind.withoutParameter := by
  rw [← name_withoutParameter]
  exact ofName?_name_of_mem_all _ (withoutParameter_mem_all kind)

theorem name_ofName? {s : String} {kind : ErrorKind} (h : ofName? s = some kind) :
    kind.name = s := by
  have := List.find?_some h
  simpa using this

theorem description_ne_empty (kind : ErrorKind) : kind.description ≠ "" := by
  cases kind <;> simp [description]

end ErrorKind

end CommandBridge
