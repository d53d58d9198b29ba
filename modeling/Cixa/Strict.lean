import Cixa.Rpc
import Cixa.Checks

/-! # Strict frames — what the codec reads and what it refuses

    The table of field names and the enumeration of the requests agree for
    EVERY type, so the check before the derived reader refuses nothing that
    the reader would take, except what a variant without fields ignores.
    What is written is read again as it was. -/

namespace CixaData

/-! ## Machine integers -/

/-- The number of an amount fits its word. -/
def Money.Ranged (m : Money) : Prop := I64.Fits m.minor

/-- The numbers of a policy fit their words. -/
structure Policy.Ranged (p : Policy) : Prop where
  version : p.version ≤ Treasury.u64Max
  maxPerTransaction : p.maxPerTransaction.Ranged
  maxPerSession : p.maxPerSession.Ranged
  maxRolling24h : p.maxRolling24h.Ranged
  maxLifetime : p.maxLifetime.Ranged
  absoluteExposureCeiling : p.absoluteExposureCeiling.Ranged
  maxTreasurySize : p.maxTreasurySize.Ranged
  reinvestmentRatioBps : p.reinvestmentRatioBps ≤ Treasury.u16Max
  maxOrderTotalDriftMinor : I64.Fits p.maxOrderTotalDriftMinor
  maxAttempts : p.maxAttempts ≤ Treasury.u32Max
  maxTransactionsPerMinute : p.maxTransactionsPerMinute ≤ Treasury.u32Max
  maxRedirects : p.maxRedirects ≤ Treasury.u64Max
  intentTtlSecs : I64.Fits p.intentTtlSecs
  cardSessionTtlSecs : I64.Fits p.cardSessionTtlSecs

/-- The numbers of a line fit their words. -/
structure PurchaseItem.Ranged (i : PurchaseItem) : Prop where
  quantity : i.quantity ≤ Treasury.u32Max
  unitPriceMinor : I64.Fits i.unitPriceMinor

/-- The numbers of a purchase fit their words. -/
structure PurchaseRequest.Ranged (r : PurchaseRequest) : Prop where
  amount : r.amount.Ranged
  finalTotal : r.finalTotal.Ranged
  items : ∀ i ∈ r.items, i.Ranged
  tipMinor : I64.Fits r.tipMinor
  attempts : r.attempts ≤ Treasury.u32Max

/-- The numbers of a request fit their words. -/
def Request.Ranged : Request → Prop
  | .createPurchaseIntent r => r.Ranged
  | .listTransactionsPage _ limit => limit ≤ Treasury.u32Max
  | .ownerListTransactionsPage _ limit => limit ≤ Treasury.u32Max
  | .ownerCreateAgent _ p _ ttlSecs => p.Ranged ∧ I64.Fits ttlSecs
  | .ownerCreateAgentPrepared _ p _ ttlSecs _ => p.Ranged ∧ I64.Fits ttlSecs
  | .ownerUpdatePolicy _ p => p.Ranged
  | .ownerRotateAgentCapability _ ttlSecs _ => I64.Fits ttlSecs
  | .ownerRecordDeposit amount .. => amount.Ranged
  | .ownerArmAgentSession _ ttlSecs => I64.Fits ttlSecs
  | .ownerConfigureManualProvider c =>
      c.balance.Ranged ∧ I64.Fits c.balanceTtlSecs
  | .ownerListAuditPage cursor limit =>
      (∀ c, cursor = some c → c ≤ Treasury.u64Max) ∧ limit ≤ Treasury.u32Max
  | _ => True

end CixaData

namespace Treasury

open CixaData Codec Checks

/-! ## What is written is read -/

theorem i64_value {n : Int} (h : I64.Fits n) :
    Read.i64.read (value (.num n)) = some n := Reader.whole_value h.1 h.2

theorem natural_value {n hi : Nat} (h : n ≤ hi) :
    (Reader.natural hi).read (value (.num n)) = some n :=
  Reader.natural_value (Int.ofNat_le.mpr h)

theorem optStr_value (s : Option String) :
    (Reader.maybe .text).read (value (Json.optStr s)) = some s := by
  cases s with
  | none => rfl
  | some s => rfl

theorem optNum_value {c : Option Nat} (h : ∀ n, c = some n → n ≤ u64Max) :
    Read.u64.maybe.read (value (Json.optNum (c.map Int.ofNat))) = some c := by
  cases c with
  | none => rfl
  | some n =>
      refine Reader.maybe_value ?_ (natural_value (h n rfl))
      intro hnull
      cases hnull

theorem mode_value (m : AutonomyMode) :
    Read.mode.read (value (Encode.mode m)) = some m := by
  cases m <;> rfl

theorem paymentForm_value (f : PaymentFormTrust) :
    Read.paymentForm.read (value (Encode.paymentForm f)) = some f := by
  cases f <;> rfl

theorem scenario_value (s : SimulatedScenario) :
    Read.scenario.read (value (Encode.scenario s)) = some s := by
  cases s <;> rfl

theorem balanceStatus_value (s : BalanceStatus) :
    Read.balanceStatus.read (value (Encode.balanceStatus s)) = some s := by
  cases s <;> rfl

theorem reconciliationOutcome_value (o : ReconciliationOutcome) :
    Read.reconciliationOutcome.read
      (value (Encode.reconciliationOutcome o)) = some o := by
  cases o <;> rfl

theorem money_value {m : Money} (h : m.Ranged) :
    Read.money.read (value (Encode.money m)) = some m := by
  refine Reader.record_value rfl fun gs hw => ?_
  obtain ⟨minor, currency⟩ := m
  refine hw.field (hw.field rfl rfl ?_) rfl rfl
  exact i64_value h

theorem policy_value {p : Policy} (h : p.Ranged) :
    Read.policy.read (value (Encode.policy p)) = some p := by
  refine Reader.record_value rfl fun gs hw => ?_
  obtain ⟨hversion, hm1, hm2, hm3, hm4, hm5, hm6, hratio, hdrift, hattempts,
    hrate, hredirects, hintent, hcard⟩ := h
  cases p
  refine hw.field ?_ rfl (i64_value hcard)
  refine hw.field ?_ rfl (i64_value hintent)
  refine hw.field ?_ rfl (natural_value hredirects)
  refine hw.field ?_ rfl (natural_value hrate)
  refine hw.field ?_ rfl (natural_value hattempts)
  refine hw.field ?_ rfl (i64_value hdrift)
  refine hw.field ?_ rfl (Reader.texts_value _)
  refine hw.field ?_ rfl rfl
  refine hw.field ?_ rfl rfl
  refine hw.field ?_ rfl rfl
  refine hw.field ?_ rfl rfl
  refine hw.field ?_ rfl rfl
  refine hw.field ?_ rfl rfl
  refine hw.field ?_ rfl (Reader.texts_value _)
  refine hw.field ?_ rfl rfl
  refine hw.field ?_ rfl (Reader.texts_value _)
  refine hw.field ?_ rfl (Reader.texts_value _)
  refine hw.field ?_ rfl (Reader.texts_value _)
  refine hw.field ?_ rfl (Reader.texts_value _)
  refine hw.field ?_ rfl (natural_value hratio)
  refine hw.field ?_ rfl (money_value hm6)
  refine hw.field ?_ rfl (money_value hm5)
  refine hw.field ?_ rfl (money_value hm4)
  refine hw.field ?_ rfl (money_value hm3)
  refine hw.field ?_ rfl (money_value hm2)
  refine hw.field ?_ rfl (money_value hm1)
  refine hw.field ?_ rfl rfl
  refine hw.field ?_ rfl (natural_value hversion)
  exact hw.field rfl rfl rfl

theorem item_value {i : PurchaseItem} (h : i.Ranged) :
    Read.item.read (value (Encode.item i)) = some i := by
  refine Reader.record_value rfl fun gs hw => ?_
  obtain ⟨hquantity, hprice⟩ := h
  cases i
  refine hw.field ?_ rfl (i64_value hprice)
  refine hw.field ?_ rfl (natural_value hquantity)
  exact hw.field rfl rfl rfl

theorem request_value {r : PurchaseRequest} (h : r.Ranged) :
    Read.request.read (value (Encode.request r)) = some r := by
  refine Reader.record_value rfl fun gs hw => ?_
  obtain ⟨hamount, htotal, hitems, htip, hattempts⟩ := h
  cases r
  refine hw.field ?_ rfl (scenario_value _)
  refine hw.field ?_ rfl rfl
  refine hw.field ?_ rfl (natural_value hattempts)
  refine hw.field ?_ rfl (Reader.items_value fun _ _ => rfl)
  refine hw.field ?_ rfl (paymentForm_value _)
  refine hw.field ?_ rfl rfl
  refine hw.field ?_ rfl rfl
  refine hw.field ?_ rfl rfl
  refine hw.field ?_ rfl (i64_value htip)
  refine hw.field ?_ rfl rfl
  refine hw.field ?_ rfl rfl
  refine hw.field ?_ rfl rfl
  refine hw.field ?_ rfl (Reader.items_value fun i hi => item_value (hitems i hi))
  refine hw.field ?_ rfl rfl
  refine hw.field ?_ rfl rfl
  refine hw.field ?_ rfl (money_value htotal)
  refine hw.field ?_ rfl (money_value hamount)
  exact hw.field rfl rfl rfl

/-! ## The variants -/

/-- **THE TABLE AND THE ENUMERATION AGREE** on every type. -/
theorem operationFields_variants :
    ∀ e ∈ variants, operationFields e.1 = e.2.names := by
  decide +kernel

theorem variants_names :
    ∀ e ∈ variants, ("type" :: e.2.names).Nodup := by
  decide +kernel

/-- The variant of a type reads a request from the fields written for it. -/
def VariantReads (kind : String) (fs : List (String × Json)) (r : Request) :
    Prop :=
  ∃ variant, SortedMap.lookupEntry kind variants = some variant
    ∧ fs.map Prod.fst = variant.names
    ∧ ∀ gs, (gs.map Prod.fst).Nodup → (∀ g ∈ gs, g.1 ∈ variant.names) →
      Written fs gs → variant.read gs = some r

theorem reads_unit {kind : String} {r : Request}
    (hkind : SortedMap.lookupEntry kind variants = some (.unit r)) :
    VariantReads kind [] r :=
  ⟨.unit r, hkind, rfl, fun _ _ _ _ => rfl⟩

theorem reads_struct {kind : String} {r : Request} {F : Fields Request}
    {hnodup : F.names.Nodup} {fs : List (String × Json)}
    (hkind : SortedMap.lookupEntry kind variants = some (.struct F hnodup))
    (hnames : fs.map Prod.fst = F.names)
    (h : ∀ gs, Written fs gs → F.read gs = some r) :
    VariantReads kind fs r := by
  refine ⟨.struct F hnodup, hkind, hnames, fun gs hkeys hmem hw => ?_⟩
  show (recordFields F.names (.obj gs)).bind F.read = some r
  have hfields : recordFields F.names (.obj gs) = some gs :=
    recordFields_obj hkeys hmem
  rw [hfields]
  exact h gs hw

/-- Every request is written in the fields that its variant reads. -/
theorem variant_reads {r : Request} (h : r.Ranged) :
    VariantReads (Encode.requestFields r).1 (Encode.requestFields r).2 r := by
  cases r with
  | getStatus => exact reads_unit rfl
  | getCapabilities => exact reads_unit rfl
  | getBudget => exact reads_unit rfl
  | getReceiveInstructions => exact reads_unit rfl
  | ownerGetDashboard => exact reads_unit rfl
  | createPurchaseIntent r =>
      exact reads_struct rfl rfl fun gs hw =>
        hw.field rfl rfl (request_value h)
  | getPurchaseIntent id =>
      exact reads_struct rfl rfl fun gs hw => hw.field rfl rfl rfl
  | executePurchaseIntent id =>
      exact reads_struct rfl rfl fun gs hw => hw.field rfl rfl rfl
  | cancelPurchaseIntent id =>
      exact reads_struct rfl rfl fun gs hw => hw.field rfl rfl rfl
  | listTransactions => exact reads_unit rfl
  | listTransactionsPage cursor limit =>
      exact reads_struct rfl rfl fun gs hw =>
        hw.field (hw.optional rfl rfl (optStr_value _)) rfl (natural_value h)
  | ownerListTransactionsPage cursor limit =>
      exact reads_struct rfl rfl fun gs hw =>
        hw.field (hw.optional rfl rfl (optStr_value _)) rfl (natural_value h)
  | getReceipt id =>
      exact reads_struct rfl rfl fun gs hw => hw.field rfl rfl rfl
  | ownerCreateAgent name p m ttlSecs =>
      refine reads_struct rfl rfl fun gs hw => ?_
      refine hw.field ?_ rfl (i64_value h.2)
      refine hw.field ?_ rfl (mode_value m)
      refine hw.field ?_ rfl (policy_value h.1)
      exact hw.field rfl rfl rfl
  | ownerCreateAgentPrepared name p m ttlSecs token =>
      refine reads_struct rfl rfl fun gs hw => ?_
      refine hw.field ?_ rfl rfl
      refine hw.field ?_ rfl (i64_value h.2)
      refine hw.field ?_ rfl (mode_value m)
      refine hw.field ?_ rfl (policy_value h.1)
      exact hw.field rfl rfl rfl
  | ownerUpdatePolicy agentId p =>
      exact reads_struct rfl rfl fun gs hw =>
        hw.field (hw.field rfl rfl rfl) rfl (policy_value h)
  | ownerSetAgentMode agentId m =>
      exact reads_struct rfl rfl fun gs hw =>
        hw.field (hw.field rfl rfl rfl) rfl (mode_value m)
  | ownerRevokeAgent agentId =>
      exact reads_struct rfl rfl fun gs hw => hw.field rfl rfl rfl
  | ownerRotateAgentCapability agentId ttlSecs token =>
      refine reads_struct rfl rfl fun gs hw => ?_
      refine hw.field ?_ rfl rfl
      refine hw.field ?_ rfl (i64_value h)
      exact hw.field rfl rfl rfl
  | ownerSetEmergencyStop stopped =>
      exact reads_struct rfl rfl fun gs hw => hw.field rfl rfl rfl
  | ownerApproveIntent id =>
      exact reads_struct rfl rfl fun gs hw => hw.field rfl rfl rfl
  | ownerDenyIntent id =>
      exact reads_struct rfl rfl fun gs hw => hw.field rfl rfl rfl
  | ownerBeginManualHandoff id =>
      exact reads_struct rfl rfl fun gs hw => hw.field rfl rfl rfl
  | ownerCompleteManualHandoff id =>
      exact reads_struct rfl rfl fun gs hw => hw.field rfl rfl rfl
  | ownerApproveMerchant agentId domain =>
      refine reads_struct rfl rfl fun gs hw => ?_
      refine hw.field ?_ rfl rfl
      exact hw.field rfl rfl rfl
  | ownerReconcile id outcome reference =>
      refine reads_struct rfl rfl fun gs hw => ?_
      refine hw.optional ?_ rfl (optStr_value _)
      refine hw.field ?_ rfl (reconciliationOutcome_value _)
      exact hw.field rfl rfl rfl
  | ownerRecordDeposit amount source verified agentId reference =>
      refine reads_struct rfl rfl fun gs hw => ?_
      refine hw.field ?_ rfl rfl
      refine hw.optional ?_ rfl (optStr_value _)
      refine hw.field ?_ rfl rfl
      refine hw.field ?_ rfl rfl
      exact hw.field rfl rfl (money_value h)
  | ownerArmAgentSession agentId ttlSecs =>
      exact reads_struct rfl rfl fun gs hw =>
        hw.field (hw.field rfl rfl rfl) rfl (i64_value h)
  | ownerConfigureManualProvider c =>
      refine reads_struct rfl rfl fun gs hw => Fields.read_map ?_
      cases c
      refine hw.field ?_ rfl rfl
      refine hw.field ?_ rfl (i64_value h.2)
      refine hw.field ?_ rfl (balanceStatus_value _)
      refine hw.field ?_ rfl (money_value h.1)
      refine hw.optional ?_ rfl (optStr_value _)
      refine hw.field ?_ rfl rfl
      exact hw.field rfl rfl rfl
  | ownerConfigureReceiveInstructions method address memo =>
      refine reads_struct rfl rfl fun gs hw => ?_
      refine hw.field ?_ rfl rfl
      refine hw.field ?_ rfl rfl
      exact hw.field rfl rfl rfl
  | ownerListAudit => exact reads_unit rfl
  | ownerListAuditRecent => exact reads_unit rfl
  | ownerListAuditPage cursor limit =>
      exact reads_struct rfl rfl fun gs hw =>
        hw.field (hw.optional rfl rfl (optNum_value h.1)) rfl (natural_value h.2)

/-! ## The tag -/

/-- An object's fields without its type. -/
def untagged (fs : List (String × Doc)) : List (String × Doc) :=
  fs.filter fun f => f.1 != "type"

theorem mem_untagged {f : String × Doc} {fs : List (String × Doc)} :
    f ∈ untagged fs ↔ f ∈ fs ∧ f.1 ≠ "type" := by
  unfold untagged
  rw [List.mem_filter, bne_iff_ne]

theorem lookup_untagged {k : String} (hk : k ≠ "type")
    (fs : List (String × Doc)) : SortedMap.lookupEntry k (untagged fs)
      = SortedMap.lookupEntry k fs := by
  induction fs with
  | nil => rfl
  | cons f rest ih =>
      unfold untagged at ih ⊢
      by_cases hf : f.1 = "type"
      · rw [List.filter_cons_of_neg (by simp [hf]), ih]
        exact (if_neg (hf ▸ hk)).symm
      · rw [List.filter_cons_of_pos (by simp [hf])]
        show (if k = f.1 then _ else _) = if k = f.1 then _ else _
        rw [ih]

theorem lookup_none {α : Type} {k : String} {fs : List (String × α)}
    (h : k ∉ fs.map Prod.fst) : SortedMap.lookupEntry k fs = none := by
  refine Option.eq_none_iff_forall_ne_some.mpr fun v hv => ?_
  exact h (List.mem_map_of_mem (mem_of_lookup hv))

/-- The object of an operation: a known type, and besides it only the fields
    of that type's variant. -/
structure Typed (os : List (String × Doc)) (kind : String)
    (variant : Variant) : Prop where
  tag : SortedMap.lookupEntry "type" os = some (.str kind)
  known : SortedMap.lookupEntry kind variants = some variant
  only : ∀ f ∈ os, f.1 ≠ "type" → f.1 ∈ variant.names

theorem readRequest_typed {os : List (String × Doc)} {kind : String}
    {variant : Variant}
    (htag : SortedMap.lookupEntry "type" os = some (.str kind))
    (hknown : SortedMap.lookupEntry kind variants = some variant) :
    readRequest os = variant.read (untagged os) := by
  unfold readRequest
  rw [htag]
  show (SortedMap.lookupEntry kind variants).bind _ = _
  rw [hknown]
  rfl

/-- What the strict reading takes: a typed object that its variant reads. -/
theorem strict_ok {d : Doc} {r : Request} :
    deserializeRequestStrict d = .ok r ↔ ∃ os kind variant,
      valueOf d = .obj os ∧ Typed os kind variant
        ∧ variant.read (untagged os) = some r := by
  constructor
  · intro h
    unfold deserializeRequestStrict at h
    split at h
    · rename_i os hos
      split at h
      · rename_i kind htag
        split at h
        · cases h
        · rename_i hfind
          cases hread : readRequest os with
          | none =>
              rw [hread] at h
              cases h
          | some r' =>
              rw [hread] at h
              cases h
              have hrun := hread
              unfold readRequest at hrun
              rw [htag] at hrun
              obtain ⟨variant, hknown, -⟩ := Option.bind_eq_some_iff.mp hrun
              refine ⟨os, kind, variant, hos, ⟨htag, hknown, ?_⟩, ?_⟩
              · intro f hf hne
                -- No unknown field was found, so every field but the tag is one
                -- of the variant's own.
                have hno := List.find?_eq_none.mp hfind f hf
                rw [operationFields_variants _ (mem_of_lookup hknown)] at hno
                simpa [hne] using hno
              · rw [← readRequest_typed htag hknown]
                exact hread
      · cases h
    · cases h
  · rintro ⟨os, kind, variant, hos, ⟨htag, hknown, honly⟩, hread⟩
    have hfind : os.find? (fun f => f.1 != "type"
        && !(operationFields kind).contains f.1) = none := by
      rw [List.find?_eq_none]
      intro f hf
      rw [operationFields_variants _ (mem_of_lookup hknown)]
      have := honly f hf
      simpa using this
    unfold deserializeRequestStrict
    rw [hos]
    dsimp only
    rw [htag]
    dsimp only
    rw [hfind, readRequest_typed htag hknown, hread]
    rfl

/-! ## The variant of a request -/

/-- A request is written under its type, with the fields of its variant. -/
def Tagged (kind : String) (variant : Variant) (r : Request) : Prop :=
  (Encode.requestFields r).1 = kind
    ∧ (Encode.requestFields r).2.map Prod.fst = variant.names

theorem yields_unit {kind : String} {u : Request}
    (h : Tagged kind (.unit u) u) : ∀ fs r,
      (Variant.unit u).read fs = some r → Tagged kind (.unit u) r := by
  intro fs r hr
  cases hr
  exact h

theorem yields_struct {kind : String} {F : Fields Request}
    {hnodup : F.names.Nodup}
    (h : F.Yields (Tagged kind (.struct F hnodup))) : ∀ fs r,
      (Variant.struct F hnodup).read fs = some r →
        Tagged kind (.struct F hnodup) r := by
  intro fs r hr
  obtain ⟨gs, -, hread⟩ := Option.bind_eq_some_iff.mp hr
  exact h gs r hread

/-- Each variant reads requests of its own type only. -/
theorem variants_tagged : ∀ e ∈ variants, ∀ fs r, e.2.read fs = some r →
    Tagged e.1 e.2 r := by
  unfold variants
  repeat' first
    | exact List.forall_mem_nil _
    | refine List.forall_mem_cons.mpr ⟨?_, ?_⟩
    | exact yields_unit ⟨rfl, rfl⟩
    | refine yields_struct ?_
    | refine Fields.Yields.field ?_
    | refine Fields.Yields.optional ?_
    | refine Fields.Yields.map ?_
    | refine Fields.Yields.of ?_
    | intro _
    | exact ⟨rfl, rfl⟩

/-! ## Round trips -/

/-- A written operation is read again as it was. -/
theorem operation_value {r : Request} (h : r.Ranged) :
    deserializeRequestStrict (reread (Encode.operation r)) = .ok r := by
  obtain ⟨variant, hknown, hnames, hread⟩ := variant_reads h
  generalize hkind : (Encode.requestFields r).1 = kind at hknown
  generalize hfields : (Encode.requestFields r).2 = fs at hnames hread
  have hnodup : ((("type", Json.str kind) :: fs).map Prod.fst).Nodup := by
    rw [List.map_cons, hnames]
    exact variants_names _ (mem_of_lookup hknown)
  have hnew : "type" ∉ fs.map Prod.fst := (List.nodup_cons.mp hnodup).1
  obtain ⟨gs, hgs, hkeys, hmem, hw⟩ := value_obj hnodup
  have honly : ∀ g ∈ gs, g.1 ≠ "type" → g.1 ∈ variant.names := by
    intro g hg hne
    rw [← hnames]
    exact (List.mem_cons.mp (hmem g hg)).resolve_left hne
  refine strict_ok.mpr ⟨gs, kind, variant, ?_, ⟨?_, hknown, honly⟩, ?_⟩
  · unfold Encode.operation
    rw [hkind, hfields]
    exact hgs
  · rw [hw "type"]
    rfl
  · refine hread _ ?_ ?_ ?_
    · exact hkeys.sublist (List.filter_sublist.map Prod.fst)
    · intro g hg
      obtain ⟨hin, hne⟩ := mem_untagged.mp hg
      exact honly g hin hne
    · intro k
      by_cases hk : k = "type"
      · subst hk
        rw [lookup_none hnew, lookup_none]
        · rfl
        · intro hin
          obtain ⟨g, hg, heq⟩ := List.mem_map.mp hin
          exact (mem_untagged.mp hg).2 heq
      · rw [lookup_untagged hk, hw k]
        exact congrArg _ (if_neg hk)

/-- A written frame is read again as it was. -/
theorem rpcRequest_value {r : RpcRequest} (h : r.operation.Ranged) :
    readRpcRequest (reread (Encode.rpcRequest r)) = .ok r := by
  have hfields : recordFields rpcRequestNames
      (reread (Encode.rpcRequest r)) = some
        [("api_version", .str r.apiVersion), ("request_id", .str r.requestId),
          ("token", .str r.token),
          ("operation", reread (Encode.operation r.operation))] := by
    refine recordFields_obj ?_ fun f hf => List.mem_map_of_mem hf
    show rpcRequestNames.Nodup
    decide
  unfold readRpcRequest
  rw [hfields]
  show (deserializeRequestStrict (reread (Encode.operation r.operation))).bind
    _ = _
  rw [operation_value h]
  rfl

/-! ## What is read is strict -/

/-- **STRICT**: the object holds its type and fields of that type's variant,
    and the value of each of them has the form of its field. -/
def OperationForm (r : Request) (o : Doc) : Prop :=
  ∃ fs os variant, o = .obj fs ∧ valueOf o = .obj os
    ∧ ((Encode.requestFields r).1, variant) ∈ variants
    ∧ SortedMap.lookupEntry "type" os
      = some (.str (Encode.requestFields r).1)
    ∧ (∀ f ∈ fs, f.1 = "type" ∨ f.1 ∈ variant.names)
    ∧ ∀ f ∈ os, f.1 ≠ "type" → ∃ P, (f.1, P) ∈ variant.forms ∧ P f.2

theorem variant_form {variant : Variant} {fs : List (String × Doc)}
    {r : Request} (hread : variant.read fs = some r)
    (honly : ∀ f ∈ fs, f.1 ∈ variant.names) :
    ∀ f ∈ fs, ∃ P, (f.1, P) ∈ variant.forms ∧ P f.2 := by
  cases variant with
  | unit u => exact fun f hf => absurd (honly f hf) List.not_mem_nil
  | struct F hnodup =>
      have hform : Form.Record F.forms (.obj fs) :=
        (Reader.record F hnodup).sound hread
      cases hform with
      | named _ h => exact h

theorem strict_form {d : Doc} {r : Request}
    (h : deserializeRequestStrict d = .ok r) : OperationForm r d := by
  obtain ⟨os, kind, variant, hos, ⟨htag, hknown, honly⟩, hread⟩ :=
    strict_ok.mp h
  have hmem := mem_of_lookup hknown
  obtain ⟨hkind, -⟩ := variants_tagged _ hmem _ r hread
  cases d with
  | obj fs =>
      refine ⟨fs, os, variant, rfl, hos, hkind ▸ hmem, hkind ▸ htag, ?_, ?_⟩
      · intro f hf
        have hkey : f.1 ∈ os.map Prod.fst := by
          cases hos
          refine key_ofList ?_
          rw [entriesOf_names]
          exact List.mem_map_of_mem hf
        obtain ⟨g, hg, heq⟩ := List.mem_map.mp hkey
        by_cases hne : f.1 = "type"
        · exact Or.inl hne
        · exact Or.inr (heq ▸ honly g hg (heq ▸ hne))
      · intro f hf hne
        refine variant_form hread ?_ f (mem_untagged.mpr ⟨hf, hne⟩)
        intro g hg
        obtain ⟨hin, hgne⟩ := mem_untagged.mp hg
        exact honly g hin hgne
  | _ => cases hos

/-- The fields of a frame. -/
def frameForms (r : RpcRequest) : List (String × Form) :=
  [("api_version", .Text), ("request_id", .Text), ("token", .Text),
    ("operation", OperationForm r.operation)]

theorem frameText_ok {fs : List (String × Doc)} {name s : String}
    (h : frameText fs name = .ok s) :
    SortedMap.lookupEntry name fs = some (.str s) := by
  unfold frameText at h
  cases hread : (SortedMap.lookupEntry name fs).bind Reader.text.read with
  | none =>
      rw [hread] at h
      cases h
  | some t =>
      rw [hread] at h
      cases h
      obtain ⟨d, hd, ht⟩ := Option.bind_eq_some_iff.mp hread
      cases d with
      | str s =>
          cases ht
          exact hd
      | _ => cases ht

theorem readRpcRequest_ok {d : Doc} {r : RpcRequest}
    (h : readRpcRequest d = .ok r) : ∃ fs o,
      recordFields rpcRequestNames d = some fs
        ∧ SortedMap.lookupEntry "api_version" fs = some (.str r.apiVersion)
        ∧ SortedMap.lookupEntry "request_id" fs = some (.str r.requestId)
        ∧ SortedMap.lookupEntry "token" fs = some (.str r.token)
        ∧ SortedMap.lookupEntry "operation" fs = some o
        ∧ deserializeRequestStrict o = .ok r.operation := by
  unfold readRpcRequest at h
  split at h
  · cases h
  · rename_i fs hfs
    simp only [bind_eq_ok] at h
    obtain ⟨version, hversion, id, hid, token, htoken, h⟩ := h
    split at h
    · cases h
    · rename_i o ho
      simp only [bind_eq_ok, pure_eq_ok] at h
      obtain ⟨operation, hread, rfl⟩ := h
      exact ⟨fs, o, hfs, frameText_ok hversion, frameText_ok hid,
        frameText_ok htoken, ho, hread⟩

/-- **A FRAME THAT IS READ** names its four fields and no other. -/
theorem readRpcRequest_form {d : Doc} {r : RpcRequest}
    (h : readRpcRequest d = .ok r) : Form.Record (frameForms r) d := by
  obtain ⟨fs, o, hfs, hversion, hid, htoken, hoperation, hread⟩ :=
    readRpcRequest_ok h
  refine record_of_lookups ?_ hfs ?_
  · show rpcRequestNames.Nodup
    decide
  · unfold frameForms
    refine List.forall_mem_cons.mpr ⟨?_, ?_⟩
    · intro d hd
      cases hversion.symm.trans hd
      exact .mk _
    refine List.forall_mem_cons.mpr ⟨?_, ?_⟩
    · intro d hd
      cases hid.symm.trans hd
      exact .mk _
    refine List.forall_mem_cons.mpr ⟨?_, ?_⟩
    · intro d hd
      cases htoken.symm.trans hd
      exact .mk _
    refine List.forall_mem_singleton.mpr ?_
    intro d hd
    cases hoperation.symm.trans hd
    exact strict_form hread

/-- The check before the derived reader refuses nothing that the reader takes
    and that is one of the request's own fields. -/
theorem strict_iff {d : Doc} {r : Request} :
    deserializeRequestStrict d = .ok r ↔ ∃ os, valueOf d = .obj os
      ∧ readRequest os = some r ∧ ∀ f ∈ os, f.1 ≠ "type" →
        f.1 ∈ (Encode.requestFields r).2.map Prod.fst := by
  constructor
  · intro h
    obtain ⟨os, kind, variant, hos, hty, hread⟩ := strict_ok.mp h
    refine ⟨os, hos, ?_, ?_⟩
    · rw [readRequest_typed hty.tag hty.known, hread]
    · obtain ⟨-, hnames⟩ := variants_tagged _ (mem_of_lookup hty.known) _ r hread
      rw [hnames]
      exact hty.only
  · rintro ⟨os, hos, hread, honly⟩
    have hrun := hread
    unfold readRequest at hrun
    split at hrun
    · rename_i kind htag
      obtain ⟨variant, hknown, hr⟩ := Option.bind_eq_some_iff.mp hrun
      obtain ⟨-, hnames⟩ := variants_tagged _ (mem_of_lookup hknown) _ r hr
      exact strict_ok.mpr
        ⟨os, kind, variant, hos, ⟨htag, hknown, hnames ▸ honly⟩, hr⟩
    · cases hrun

/-! ## The codec -/

/-- **THE STRICT CODEC IS FAITHFUL.** A written frame is read as it was.  A
    frame that is read has its four fields alone, and its operation a known
    type with only that type's fields, in every record the forms of its own
    fields.  And the table and the enumeration agree on every type: the
    strict reading takes what the derived one takes, less the objects with a
    field that is not the request's. -/
theorem rpc_codec_is_faithful (r : RpcRequest) (d : Doc) :
    (r.operation.Ranged →
      readRpcRequest (reread (Encode.rpcRequest r)) = .ok r)
    ∧ (readRpcRequest d = .ok r → Form.Record (frameForms r) d
      ∧ ∃ fs o, recordFields rpcRequestNames d = some fs
        ∧ SortedMap.lookupEntry "operation" fs = some o
        ∧ OperationForm r.operation o)
    ∧ (∀ e ∈ variants, operationFields e.1 = e.2.names)
    ∧ (deserializeRequestStrict d = .ok r.operation ↔ ∃ os,
      valueOf d = .obj os ∧ readRequest os = some r.operation
        ∧ ∀ f ∈ os, f.1 ≠ "type" →
          f.1 ∈ (Encode.requestFields r.operation).2.map Prod.fst) := by
  refine ⟨rpcRequest_value, fun h => ⟨readRpcRequest_form h, ?_⟩,
    operationFields_variants, strict_iff⟩
  obtain ⟨fs, o, hfs, -, -, -, hoperation, hread⟩ := readRpcRequest_ok h
  exact ⟨fs, o, hfs, hoperation, strict_form hread⟩

/-- A purchase of two kinds of items, in US cents. -/
def twoBooks : PurchaseRequest where
  idempotencyKey := "order-7"
  amount := ⟨5397, "USD"⟩
  finalTotal := ⟨5997, "USD"⟩
  merchantDomain := "books.example.test"
  category := "books"
  items := [⟨"a novel", 2, 1499⟩, ⟨"an atlas", 1, 2399⟩]
  recurring := false
  trialAutoRenew := false
  storedCard := false
  tipMinor := 0
  preauthorization := false
  installments := false
  fulfillmentProfile := "home"
  paymentForm := .hostedFields
  redirectChain := ["https://books.example.test/cart"]
  attempts := 1
  sessionId := "session-7"
  scenario := .normal

theorem twoBooks_ranged : twoBooks.Ranged := by
  have hamount : I64.Fits 5397 := by decide
  have htotal : I64.Fits 5997 := by decide
  refine ⟨hamount, htotal, fun i hi => ?_, by decide, by decide⟩
  rcases List.mem_cons.mp hi with rfl | hi
  · exact ⟨by decide, by decide⟩
  · obtain rfl := List.mem_singleton.mp hi
    exact ⟨by decide, by decide⟩

/-- A frame with the purchase is read as it was, and the purchase with a field
    that is not its request's is not. -/
theorem rpc_codec_is_faithful_purchase :
    readRpcRequest (reread (Encode.rpcRequest
        ⟨"v1", "1", "t", .createPurchaseIntent twoBooks⟩))
        = .ok ⟨"v1", "1", "t", .createPurchaseIntent twoBooks⟩
      ∧ deserializeRequestStrict (.obj [("request",
            reread (Encode.request twoBooks)), ("type",
            .str "create_purchase_intent"), ("unexpected", .bool true)])
        ≠ .ok (.createPurchaseIntent twoBooks) := by
  refine ⟨(rpc_codec_is_faithful
    ⟨"v1", "1", "t", .createPurchaseIntent twoBooks⟩ .null).1 twoBooks_ranged,
    fun h => ?_⟩
  have hiff := (rpc_codec_is_faithful
    ⟨"v1", "1", "t", .createPurchaseIntent twoBooks⟩ (.obj [("request",
      reread (Encode.request twoBooks)), ("type",
      .str "create_purchase_intent"), ("unexpected", .bool true)])).2.2.2
  obtain ⟨os, hos, -, honly⟩ := hiff.mp h
  cases hos
  have hget : (SortedMap.ofList (entriesOf [("request",
      reread (Encode.request twoBooks)), ("type",
      .str "create_purchase_intent"), ("unexpected", .bool true)])).get?
        "unexpected" = some (.bool true) := by
    rw [get?_ofList]
    · rfl
    · show ["request", "type", "unexpected"].Nodup
      decide
  have hmem := honly _ (SortedMap.get?_eq_some.mp hget) (by decide)
  exact absurd hmem (by decide)

end Treasury
