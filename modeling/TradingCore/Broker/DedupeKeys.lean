import TradingCore.Broker.CommandQueue
import TradingCore.Base.Joined

/-!
# Which orders a derived key tells apart

`dedupe_key_for_command` joins seven fields of a `send_order` payload at `:`, and does not escape
the `:` a field contains. Two keys are equal exactly if the fields read the same once cut at every
`:` (`derivedKey_eq_iff`), so the keys identify the orders unless two payloads spread the same
segments over their fields in different ways (`derived_keys_identify_iff`).
-/

namespace TradingCore.Broker

open Base

/-- The fields a `send_order` key is derived from, as the key prints them: account, code, side,
quantity, price, tag and the strategy order or candidate. -/
def orderFields (command : GatewayCommand) : List String :=
  let payload := command.payload
  [payload.text "account", payload.text "code", payload.text "side", payload.text "quantity",
   payload.text "price", payload.text "tag",
   (((payload.value "strategy_order_id").or (payload.value "candidate_id")).or (.str "")).text]

def orderParts (command : GatewayCommand) : List (List Char) :=
  (orderFields command).map String.toList

variable {digest : GatewayCommand → String} {a b : GatewayCommand}

theorem orderParts_ne_nil (command : GatewayCommand) : orderParts command ≠ [] :=
  List.cons_ne_nil _ _

theorem orderParts_eq_iff : orderParts a = orderParts b ↔ orderFields a = orderFields b := by
  refine ⟨fun h => ?_, fun h => by rw [orderParts, h, orderParts]⟩
  exact List.map_injective_iff.mpr (fun _ _ => String.toList_inj.mp) h

/-- The derived key of an order is its fields joined at `:`. -/
theorem derivedKey_toList (htype : a.type = "send_order") (hkey : a.idempotencyKey = "") :
    (dedupeKeyForCommand digest a).toList = "order:".toList ++ join ':' (orderParts a) := by
  rw [dedupeKeyForCommand, if_neg (not_not_intro hkey), if_pos htype]
  simp [orderParts, orderFields, join, List.intercalate_cons_cons, List.append_assoc]

theorem derivedKey_eq_iff (hatype : a.type = "send_order") (hbtype : b.type = "send_order")
    (hakey : a.idempotencyKey = "") (hbkey : b.idempotencyKey = "") :
    dedupeKeyForCommand digest a = dedupeKeyForCommand digest b ↔
      segments ':' (orderParts a) = segments ':' (orderParts b) := by
  rw [← String.toList_inj, derivedKey_toList hatype hakey, derivedKey_toList hbtype hbkey,
    List.append_cancel_left_eq, join_eq_iff (orderParts_ne_nil a) (orderParts_ne_nil b)]

/-- For every two `send_order` commands without an idempotency key: the derived keys are equal
exactly if the fields are, if and only if the fields before the last contain as many colons in
both commands, place by place, or the fields differ in what stands between their colons. -/
theorem derived_keys_identify_iff (digest : GatewayCommand → String) (a b : GatewayCommand)
    (hatype : a.type = "send_order") (hbtype : b.type = "send_order")
    (hakey : a.idempotencyKey = "") (hbkey : b.idempotencyKey = "") :
    (dedupeKeyForCommand digest a = dedupeKeyForCommand digest b ↔
        orderFields a = orderFields b) ↔
      separators ':' (orderParts a) = separators ':' (orderParts b) ∨
        segments ':' (orderParts a) ≠ segments ':' (orderParts b) := by
  rw [derivedKey_eq_iff hatype hbtype hakey hbkey]
  constructor
  · intro h
    by_cases hsegments : segments ':' (orderParts a) = segments ':' (orderParts b)
    · exact Or.inl (by rw [orderParts_eq_iff.mpr (h.mp hsegments)])
    · exact Or.inr hsegments
  · intro hwhen
    refine ⟨fun hsegments => ?_, fun hfields => by rw [orderParts_eq_iff.mpr hfields]⟩
    -- equal segments leave only equal colon counts
    have hseparators := hwhen.resolve_right (not_not_intro hsegments)
    exact orderParts_eq_iff.mp (eq_of_segments_eq rfl hseparators hsegments)

/-! ## Fixed commands -/

def taggedOrder (tag strategyOrderId : String) : GatewayCommand where
  type := "send_order"
  commandId := "cmd_1"
  source := "core"
  payload := Dict.ofList
    [("account", .str "8012345611"), ("code", .str "005930"), ("side", .str "buy"),
     ("quantity", .int 10), ("price", .int 70000), ("tag", .str tag),
     ("strategy_order_id", .str strategyOrderId)]

/-- Orders of one exit for two strategy orders have different keys. -/
theorem derived_keys_identify_two_exits :
    dedupeKeyForCommand (fun _ => "") (taggedOrder "runtime:exit" "7") ≠
      dedupeKeyForCommand (fun _ => "") (taggedOrder "runtime:exit" "8") := by
  have hidentify := (derived_keys_identify_iff (fun _ => "") (taggedOrder "runtime:exit" "7")
    (taggedOrder "runtime:exit" "8") rfl rfl rfl rfl).mpr (Or.inl (by decide +kernel))
  exact hidentify.not.mpr (by decide +kernel)

/-- The order tagged `runtime:exit` for the strategy order `7` and the one tagged `runtime` for the
strategy order `exit:7` have one key. -/
theorem colons_merge_two_orders :
    ¬ ∀ (digest : GatewayCommand → String) (a b : GatewayCommand), a.type = "send_order" →
      b.type = "send_order" → a.idempotencyKey = "" → b.idempotencyKey = "" →
      (dedupeKeyForCommand digest a = dedupeKeyForCommand digest b ↔
        orderFields a = orderFields b) := by
  intro hidentify
  have h := hidentify (fun _ => "") (taggedOrder "runtime:exit" "7")
    (taggedOrder "runtime" "exit:7") rfl rfl rfl rfl
  exact absurd (h.mp (by decide +kernel)) (by decide +kernel)

end TradingCore.Broker
