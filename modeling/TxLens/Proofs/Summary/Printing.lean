import TxLens.Proofs.Json.Printing
import TxLens.Summary
/-!
# Summaries as JSON

No number of a summary has a fraction or a sign, so the JSON of a summary can be printed as it is
(`printable_toJson`).
-/

namespace TxLens

open Json

namespace Summary

theorem printable_textsToJson (texts : List String) : Printable (textsToJson texts) :=
  printable_list_map printable_ofText texts

theorem printable_textToJson? (s : Option String) : Printable (textToJson? s) :=
  printable_ofOption_map printable_ofText s

theorem printable_messageTypeToJson (t : MessageType) : Printable (messageTypeToJson t) := by
  refine printable_ofMembers ?_
  rw [List.forall_mem_cons, List.forall_mem_cons, List.forall_mem_singleton]
  exact ⟨.text _, .text _, .text _⟩

theorem printable_memberToJson (m : MultisigMember) : Printable (memberToJson m) := by
  refine printable_ofMembers ?_
  rw [List.forall_mem_cons, List.forall_mem_cons, List.forall_mem_cons, List.forall_mem_singleton]
  exact ⟨.natural _, .text _, printable_textToJson? m.address, .bool _⟩

theorem printable_breakdownToJson (b : MultisigBreakdown) : Printable (breakdownToJson b) := by
  refine printable_ofMembers ?_
  rw [List.forall_mem_cons, List.forall_mem_cons, List.forall_mem_singleton]
  exact ⟨.natural _, .text _, printable_list_map printable_memberToJson b.members⟩

theorem printable_signatureToJson (s : SignatureRecord) : Printable (signatureToJson s) := by
  refine printable_ofMembers ?_
  rw [List.forall_mem_cons, List.forall_mem_cons, List.forall_mem_cons, List.forall_mem_cons,
    List.forall_mem_cons, List.forall_mem_singleton]
  exact ⟨.natural _, .text _, printable_textToJson? s.address, printable_textToJson? s.base64Key,
    .natural _, printable_ofOption_map printable_breakdownToJson s.multisig⟩

theorem printable_customFeeToJson (f : CustomFee) : Printable (customFeeToJson f) := by
  refine printable_ofMembers ?_
  rw [List.forall_mem_cons, List.forall_mem_cons, List.forall_mem_cons, List.forall_mem_singleton]
  exact ⟨.text _, .natural _, .text _, .text _⟩

theorem printable_surchargeToJson (s : Surcharge) : Printable (surchargeToJson s) := by
  refine printable_ofMembers ?_
  rw [List.forall_mem_cons, List.forall_mem_cons, List.forall_mem_cons, List.forall_mem_cons,
    List.forall_mem_cons, List.forall_mem_singleton]
  exact ⟨.text _, .text _, .natural _, .text _, printable_textToJson? s.recipient,
    printable_list_map printable_customFeeToJson s.customFees⟩

theorem printable_moneyToJson (m : Money) : Printable (moneyToJson m) := by
  refine printable_ofMembers ?_
  rw [List.forall_mem_cons, List.forall_mem_singleton]
  exact ⟨.natural _, .text _⟩

theorem printable_toJson (s : Summary) : Printable s.toJson := by
  refine printable_ofMembers ?_
  rw [List.forall_mem_cons, List.forall_mem_cons, List.forall_mem_cons, List.forall_mem_cons,
    List.forall_mem_cons, List.forall_mem_cons, List.forall_mem_cons, List.forall_mem_cons,
    List.forall_mem_cons, List.forall_mem_cons, List.forall_mem_singleton]
  exact ⟨.natural _, .text _, .bool _, printable_list_map printable_messageTypeToJson s.messageTypes,
    printable_list_map printable_textsToJson s.messageSigners, printable_textsToJson s.addresses,
    printable_textToJson? s.firstSigner, printable_list_map printable_signatureToJson s.signatures,
    printable_list_map printable_surchargeToJson s.surcharges, printable_moneyToJson s.resolution.fee,
    .text _⟩

end Summary

end TxLens
