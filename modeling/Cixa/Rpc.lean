import Cixa.Codec
import Cixa.Intents

/-! # RPC frames — the fields of a frame and their strict reading

    A frame names its version, its id, its token and one operation.  The
    operation is first read as an untyped value, checked against a table of
    the field names of its type, and then read as a request by the derived
    reader.  The derived reader of a variant WITHOUT fields takes whatever
    else the object holds; the table is what refuses it. -/

namespace Treasury

open CixaData Codec

/-! ## Values -/

/-- The greatest unsigned 16-bit integer. -/
def u16Max : Nat := 65535

/-- The greatest unsigned 32-bit integer. -/
def u32Max : Nat := 4294967295

namespace Read

/-- Read a signed 64-bit integer. -/
def i64 : Reader Int := .whole I64.minValue I64.maxValue

/-- Read an unsigned 16-bit integer. -/
def u16 : Reader Nat := .natural u16Max

/-- Read an unsigned 32-bit integer. -/
def u32 : Reader Nat := .natural u32Max

/-- Read an unsigned 64-bit integer. -/
def u64 : Reader Nat := .natural u64Max

/-- Read a mode. -/
def mode : Reader AutonomyMode := .choice
  [("observe", .observe), ("approval_required", .approvalRequired),
    ("bounded_autonomous", .boundedAutonomous), ("disabled", .disabled)]

/-- Read who controls a form. -/
def paymentForm : Reader PaymentFormTrust := .choice
  [("hosted_fields", .hostedFields),
    ("owner_approved_merchant", .ownerApprovedMerchant),
    ("merchant_controlled", .merchantControlled)]

/-- Read a scenario. -/
def scenario : Reader SimulatedScenario := .choice
  [("normal", .normal), ("decline", .decline),
    ("delayed_settlement", .delayedSettlement),
    ("timeout_before_submit", .timeoutBeforeSubmit),
    ("timeout_after_submit", .timeoutAfterSubmit),
    ("duplicate_form_submission", .duplicateFormSubmission),
    ("misleading_success_page", .misleadingSuccessPage),
    ("prompt_injection", .promptInjection),
    ("amount_changed", .amountChanged),
    ("currency_changed", .currencyChanged),
    ("hidden_recurring", .hiddenRecurring), ("card_saving", .cardSaving),
    ("tip", .tip), ("preauthorization", .preauthorization),
    ("merchant_controlled_form", .merchantControlledForm),
    ("redirect_to_other_domain", .redirectToOtherDomain),
    ("redirect_to_localhost", .redirectToLocalhost),
    ("dns_rebinding_like", .dnsRebindingLike),
    ("browser_crash", .browserCrash)]

/-- Read a balance's status. -/
def balanceStatus : Reader BalanceStatus := .choice
  [("estimated", .estimated), ("owner_confirmed", .ownerConfirmed),
    ("provider_verified", .providerVerified)]

/-- Read an outcome. -/
def reconciliationOutcome : Reader ReconciliationOutcome := .choice
  [("settled", .settled), ("declined", .declined), ("refunded", .refunded)]

/-- The fields of an amount. -/
def moneyFields : Fields Money :=
  (Fields.of Money.mk).field "minor" i64 |>.field "currency" .text

/-- Read an amount. -/
def money : Reader Money := .record moneyFields (by decide)

/-- The fields of a policy. -/
def policyFields : Fields Policy :=
  (Fields.of Policy.mk).field "id" .text
    |>.field "version" u64
    |>.field "primary_currency" .text
    |>.field "max_per_transaction" money
    |>.field "max_per_session" money
    |>.field "max_rolling_24h" money
    |>.field "max_lifetime" money
    |>.field "absolute_exposure_ceiling" money
    |>.field "max_treasury_size" money
    |>.field "reinvestment_ratio_bps" u16
    |>.field "allowed_currencies" .texts
    |>.field "allowed_merchants" .texts
    |>.field "denied_merchants" .texts
    |>.field "approved_redirect_domains" .texts
    |>.field "require_approval_for_new_merchants" .flag
    |>.field "approved_fulfillment_profiles" .texts
    |>.field "allow_recurring" .flag
    |>.field "allow_trials" .flag
    |>.field "allow_stored_card" .flag
    |>.field "allow_tips" .flag
    |>.field "allow_preauthorization" .flag
    |>.field "allow_installments" .flag
    |>.field "denied_categories" .texts
    |>.field "max_order_total_drift_minor" i64
    |>.field "max_attempts" u32
    |>.field "max_transactions_per_minute" u32
    |>.field "max_redirects" u64
    |>.field "intent_ttl_secs" i64
    |>.field "card_session_ttl_secs" i64

/-- Read a policy. -/
def policy : Reader Policy := .record policyFields (by decide)

/-- The fields of a line of a purchase. -/
def itemFields : Fields PurchaseItem :=
  (Fields.of PurchaseItem.mk).field "label" .text
    |>.field "quantity" u32
    |>.field "unit_price_minor" i64

/-- Read a line of a purchase. -/
def item : Reader PurchaseItem := .record itemFields (by decide)

/-- The fields of a purchase request. -/
def requestFields : Fields PurchaseRequest :=
  (Fields.of PurchaseRequest.mk).field "idempotency_key" .text
    |>.field "amount" money
    |>.field "final_total" money
    |>.field "merchant_domain" .text
    |>.field "category" .text
    |>.field "items" item.items
    |>.field "recurring" .flag
    |>.field "trial_auto_renew" .flag
    |>.field "stored_card" .flag
    |>.field "tip_minor" i64
    |>.field "preauthorization" .flag
    |>.field "installments" .flag
    |>.field "fulfillment_profile" .text
    |>.field "payment_form" paymentForm
    |>.field "redirect_chain" (Reader.items .text)
    |>.field "attempts" u32
    |>.field "session_id" .text
    |>.field "scenario" scenario

/-- The fields of a card's configuration. -/
def configurationFields : Fields ManualProviderConfiguration :=
  (Fields.of ManualProviderConfiguration.mk)
    |>.field "credential_reference" .text
    |>.field "provider_kind" .text
    |>.optional "last_four" .text
    |>.field "balance" money
    |>.field "balance_status" balanceStatus
    |>.field "balance_ttl_secs" i64
    |>.field "autonomous_checkout" .flag

/-- Read a purchase request. -/
def request : Reader PurchaseRequest := .record requestFields (by decide)

end Read

/-! ## Requests -/

/-- A variant of a tagged enumeration: without fields, or with these. -/
inductive Variant where
  | unit (request : Request)
  | struct (fields : Fields Request) (hnodup : fields.names.Nodup)

namespace Variant

/-- The names of a variant's own fields. -/
def names : Variant → List String
  | unit _ => []
  | struct F _ => F.names

/-- The fields of a variant, with the forms of what they hold. -/
def forms : Variant → List (String × Form)
  | unit _ => []
  | struct F _ => F.forms

/-- What the derived reader makes of an object's other fields: a variant
    without fields takes them all, a variant with fields its own alone. -/
def read : Variant → List (String × Doc) → Option Request
  | unit r, _ => some r
  | struct F _, fs => (recordFields F.names (.obj fs)).bind F.read

end Variant

open Variant in
/-- The variants of a request, as the enumeration declares them. -/
def variants : List (String × Variant) :=
  [("get_status", unit .getStatus),
    ("get_capabilities", unit .getCapabilities),
    ("get_budget", unit .getBudget),
    ("get_receive_instructions", unit .getReceiveInstructions),
    ("owner_get_dashboard", unit .ownerGetDashboard),
    ("create_purchase_intent", struct
      ((Fields.of Request.createPurchaseIntent).field "request" Read.request)
      (by decide)),
    ("get_purchase_intent", struct
      ((Fields.of Request.getPurchaseIntent).field "intent_id" .text)
      (by decide)),
    ("execute_purchase_intent", struct
      ((Fields.of Request.executePurchaseIntent).field "intent_id" .text)
      (by decide)),
    ("cancel_purchase_intent", struct
      ((Fields.of Request.cancelPurchaseIntent).field "intent_id" .text)
      (by decide)),
    ("list_transactions", unit .listTransactions),
    ("list_transactions_page", struct
      ((Fields.of Request.listTransactionsPage).optional "cursor" .text
        |>.field "limit" Read.u32)
      (by decide)),
    ("owner_list_transactions_page", struct
      ((Fields.of Request.ownerListTransactionsPage).optional "cursor" .text
        |>.field "limit" Read.u32)
      (by decide)),
    ("get_receipt", struct
      ((Fields.of Request.getReceipt).field "intent_id" .text)
      (by decide)),
    ("owner_create_agent", struct
      ((Fields.of Request.ownerCreateAgent).field "name" .text
        |>.field "policy" Read.policy
        |>.field "mode" Read.mode
        |>.field "ttl_secs" Read.i64)
      (by decide)),
    ("owner_create_agent_prepared", struct
      ((Fields.of Request.ownerCreateAgentPrepared).field "name" .text
        |>.field "policy" Read.policy
        |>.field "mode" Read.mode
        |>.field "ttl_secs" Read.i64
        |>.field "capability_token" .text)
      (by decide)),
    ("owner_update_policy", struct
      ((Fields.of Request.ownerUpdatePolicy).field "agent_id" .text
        |>.field "policy" Read.policy)
      (by decide)),
    ("owner_set_agent_mode", struct
      ((Fields.of Request.ownerSetAgentMode).field "agent_id" .text
        |>.field "mode" Read.mode)
      (by decide)),
    ("owner_revoke_agent", struct
      ((Fields.of Request.ownerRevokeAgent).field "agent_id" .text)
      (by decide)),
    ("owner_rotate_agent_capability", struct
      ((Fields.of Request.ownerRotateAgentCapability).field "agent_id" .text
        |>.field "ttl_secs" Read.i64
        |>.field "capability_token" .text)
      (by decide)),
    ("owner_set_emergency_stop", struct
      ((Fields.of Request.ownerSetEmergencyStop).field "stopped" .flag)
      (by decide)),
    ("owner_approve_intent", struct
      ((Fields.of Request.ownerApproveIntent).field "intent_id" .text)
      (by decide)),
    ("owner_deny_intent", struct
      ((Fields.of Request.ownerDenyIntent).field "intent_id" .text)
      (by decide)),
    ("owner_begin_manual_handoff", struct
      ((Fields.of Request.ownerBeginManualHandoff).field "intent_id" .text)
      (by decide)),
    ("owner_complete_manual_handoff", struct
      ((Fields.of Request.ownerCompleteManualHandoff).field "intent_id" .text)
      (by decide)),
    ("owner_approve_merchant", struct
      ((Fields.of Request.ownerApproveMerchant).field "agent_id" .text
        |>.field "merchant_domain" .text)
      (by decide)),
    ("owner_reconcile", struct
      ((Fields.of Request.ownerReconcile).field "intent_id" .text
        |>.field "outcome" Read.reconciliationOutcome
        |>.optional "provider_reference" .text)
      (by decide)),
    ("owner_record_deposit", struct
      ((Fields.of Request.ownerRecordDeposit).field "amount" Read.money
        |>.field "source" .text
        |>.field "verified" .flag
        |>.optional "agent_id" .text
        |>.field "external_reference" .text)
      (by decide)),
    ("owner_arm_agent_session", struct
      ((Fields.of Request.ownerArmAgentSession).field "agent_id" .text
        |>.field "ttl_secs" Read.i64)
      (by decide)),
    ("owner_configure_manual_provider", struct
      (Read.configurationFields.map Request.ownerConfigureManualProvider)
      (by decide)),
    ("owner_configure_receive_instructions", struct
      ((Fields.of Request.ownerConfigureReceiveInstructions).field "method" .text
        |>.field "address" .text
        |>.field "memo_template" .text)
      (by decide)),
    ("owner_list_audit", unit .ownerListAudit),
    ("owner_list_audit_recent", unit .ownerListAuditRecent),
    ("owner_list_audit_page", struct
      ((Fields.of Request.ownerListAuditPage).optional "cursor" Read.u64
        |>.field "limit" Read.u32)
      (by decide))]

/-- The derived reader of a request: its type, and the variant's fields from
    the rest of the object. -/
def readRequest (fs : List (String × Doc)) : Option Request :=
  match SortedMap.lookupEntry "type" fs with
  | some (.str kind) =>
      (SortedMap.lookupEntry kind variants).bind fun variant =>
        variant.read (fs.filter fun f => f.1 != "type")
  | _ => none

/-- Why a frame is refused: with a message of the broker's own, or by the
    derived reader. -/
inductive FrameError where
  | custom (message : String)
  | derived
  deriving DecidableEq

/-- The table of the field names that belong to a type. -/
def operationFields (kind : String) : List String :=
  match kind with
  | "get_status" | "get_capabilities" | "get_budget"
  | "get_receive_instructions" | "list_transactions" | "owner_list_audit"
  | "owner_list_audit_recent" | "owner_get_dashboard" => []
  | "list_transactions_page" | "owner_list_transactions_page"
  | "owner_list_audit_page" => ["cursor", "limit"]
  | "create_purchase_intent" => ["request"]
  | "get_purchase_intent" | "execute_purchase_intent"
  | "cancel_purchase_intent" | "get_receipt" | "owner_approve_intent"
  | "owner_deny_intent" | "owner_begin_manual_handoff"
  | "owner_complete_manual_handoff" => ["intent_id"]
  | "owner_create_agent" => ["name", "policy", "mode", "ttl_secs"]
  | "owner_create_agent_prepared" =>
      ["name", "policy", "mode", "ttl_secs", "capability_token"]
  | "owner_update_policy" => ["agent_id", "policy"]
  | "owner_set_agent_mode" => ["agent_id", "mode"]
  | "owner_revoke_agent" => ["agent_id"]
  | "owner_rotate_agent_capability" =>
      ["agent_id", "ttl_secs", "capability_token"]
  | "owner_set_emergency_stop" => ["stopped"]
  | "owner_approve_merchant" => ["agent_id", "merchant_domain"]
  | "owner_reconcile" => ["intent_id", "outcome", "provider_reference"]
  | "owner_record_deposit" =>
      ["amount", "source", "verified", "agent_id", "external_reference"]
  | "owner_arm_agent_session" => ["agent_id", "ttl_secs"]
  | "owner_configure_manual_provider" =>
      ["credential_reference", "provider_kind", "last_four", "balance",
        "balance_status", "balance_ttl_secs", "autonomous_checkout"]
  | "owner_configure_receive_instructions" =>
      ["method", "address", "memo_template"]
  | _ => []

/-- An operation's document, read strictly. -/
def deserializeRequestStrict (d : Doc) : Except FrameError Request :=
  match valueOf d with
  | .obj object =>
      match SortedMap.lookupEntry "type" object with
      | some (.str kind) =>
          match object.find? (fun f =>
              f.1 != "type" && !(operationFields kind).contains f.1) with
          | some f => .error (.custom
              ("unknown field " ++ f.1 ++ " for operation " ++ kind))
          | none => (readRequest object).elim (.error .derived) .ok
      | _ => .error (.custom "operation must contain a string type field")
  | _ => .error (.custom "operation must be an object with a type field")

/-! ## Frames -/

/-- A request with its envelope. -/
structure RpcRequest where
  apiVersion : String
  requestId : String
  token : String
  operation : Request
  deriving DecidableEq

/-- The fields of the envelope. -/
def rpcRequestNames : List String :=
  ["api_version", "request_id", "token", "operation"]

/-- The field of a frame that holds a text. -/
def frameText (fs : List (String × Doc)) (name : String) :
    Except FrameError String :=
  ((SortedMap.lookupEntry name fs).bind Reader.text.read).elim
    (.error .derived) .ok

/-- A frame read from the document of its text. -/
def readRpcRequest (d : Doc) : Except FrameError RpcRequest :=
  match recordFields rpcRequestNames d with
  | none => .error .derived
  | some fs => do
      let apiVersion ← frameText fs "api_version"
      let requestId ← frameText fs "request_id"
      let token ← frameText fs "token"
      match SortedMap.lookupEntry "operation" fs with
      | none => .error .derived
      | some o => do
          let operation ← deserializeRequestStrict o
          pure ⟨apiVersion, requestId, token, operation⟩

/-! ## Writing -/

namespace Encode

/-- The type of a request and its fields. -/
def requestFields : Request → String × List (String × Json)
  | .getStatus => ("get_status", [])
  | .getCapabilities => ("get_capabilities", [])
  | .getBudget => ("get_budget", [])
  | .getReceiveInstructions => ("get_receive_instructions", [])
  | .ownerGetDashboard => ("owner_get_dashboard", [])
  | .createPurchaseIntent r =>
      ("create_purchase_intent", [("request", request r)])
  | .getPurchaseIntent id => ("get_purchase_intent", [("intent_id", .str id)])
  | .executePurchaseIntent id =>
      ("execute_purchase_intent", [("intent_id", .str id)])
  | .cancelPurchaseIntent id =>
      ("cancel_purchase_intent", [("intent_id", .str id)])
  | .listTransactions => ("list_transactions", [])
  | .listTransactionsPage cursor limit => ("list_transactions_page",
      [("cursor", Json.optStr cursor), ("limit", .num limit)])
  | .ownerListTransactionsPage cursor limit => ("owner_list_transactions_page",
      [("cursor", Json.optStr cursor), ("limit", .num limit)])
  | .getReceipt id => ("get_receipt", [("intent_id", .str id)])
  | .ownerCreateAgent name p m ttlSecs => ("owner_create_agent",
      [("name", .str name), ("policy", policy p), ("mode", mode m),
        ("ttl_secs", .num ttlSecs)])
  | .ownerCreateAgentPrepared name p m ttlSecs capabilityToken =>
      ("owner_create_agent_prepared",
        [("name", .str name), ("policy", policy p), ("mode", mode m),
          ("ttl_secs", .num ttlSecs),
          ("capability_token", .str capabilityToken)])
  | .ownerUpdatePolicy agentId p => ("owner_update_policy",
      [("agent_id", .str agentId), ("policy", policy p)])
  | .ownerSetAgentMode agentId m => ("owner_set_agent_mode",
      [("agent_id", .str agentId), ("mode", mode m)])
  | .ownerRevokeAgent agentId =>
      ("owner_revoke_agent", [("agent_id", .str agentId)])
  | .ownerRotateAgentCapability agentId ttlSecs capabilityToken =>
      ("owner_rotate_agent_capability",
        [("agent_id", .str agentId), ("ttl_secs", .num ttlSecs),
          ("capability_token", .str capabilityToken)])
  | .ownerSetEmergencyStop stopped =>
      ("owner_set_emergency_stop", [("stopped", .bool stopped)])
  | .ownerApproveIntent id => ("owner_approve_intent", [("intent_id", .str id)])
  | .ownerDenyIntent id => ("owner_deny_intent", [("intent_id", .str id)])
  | .ownerBeginManualHandoff id =>
      ("owner_begin_manual_handoff", [("intent_id", .str id)])
  | .ownerCompleteManualHandoff id =>
      ("owner_complete_manual_handoff", [("intent_id", .str id)])
  | .ownerApproveMerchant agentId merchantDomain => ("owner_approve_merchant",
      [("agent_id", .str agentId), ("merchant_domain", .str merchantDomain)])
  | .ownerReconcile id outcome providerReference => ("owner_reconcile",
      [("intent_id", .str id), ("outcome", reconciliationOutcome outcome),
        ("provider_reference", Json.optStr providerReference)])
  | .ownerRecordDeposit amount source verified agentId externalReference =>
      ("owner_record_deposit",
        [("amount", money amount), ("source", .str source),
          ("verified", .bool verified), ("agent_id", Json.optStr agentId),
          ("external_reference", .str externalReference)])
  | .ownerArmAgentSession agentId ttlSecs => ("owner_arm_agent_session",
      [("agent_id", .str agentId), ("ttl_secs", .num ttlSecs)])
  | .ownerConfigureManualProvider c => ("owner_configure_manual_provider",
      [("credential_reference", .str c.credentialReference),
        ("provider_kind", .str c.providerKind),
        ("last_four", Json.optStr c.lastFour), ("balance", money c.balance),
        ("balance_status", balanceStatus c.balanceStatus),
        ("balance_ttl_secs", .num c.balanceTtlSecs),
        ("autonomous_checkout", .bool c.autonomousCheckout)])
  | .ownerConfigureReceiveInstructions method address memoTemplate =>
      ("owner_configure_receive_instructions",
        [("method", .str method), ("address", .str address),
          ("memo_template", .str memoTemplate)])
  | .ownerListAudit => ("owner_list_audit", [])
  | .ownerListAuditRecent => ("owner_list_audit_recent", [])
  | .ownerListAuditPage cursor limit => ("owner_list_audit_page",
      [("cursor", Json.optNum (cursor.map Int.ofNat)), ("limit", .num limit)])

/-- A request: its type first, then its fields. -/
def operation (r : Request) : Json :=
  .obj (("type", .str (requestFields r).1) :: (requestFields r).2)

/-- A request with its envelope, as a document. -/
def rpcRequest (r : RpcRequest) : Json :=
  .obj [("api_version", .str r.apiVersion), ("request_id", .str r.requestId),
    ("token", .str r.token), ("operation", operation r.operation)]

end Encode

end Treasury
