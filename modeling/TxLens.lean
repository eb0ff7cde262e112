import TxLens.Reading
import TxLens.Bytes
import TxLens.Bytes.Base64
import TxLens.Files
import TxLens.Digest
import TxLens.Text.Blank
import TxLens.Text.Decimal
import TxLens.Text.LetterCase
import TxLens.Text.Quoted
import TxLens.Address
import TxLens.Wire.Parser
import TxLens.Wire.Printer
import TxLens.Tx
import TxLens.Multisig
import TxLens.Text.SnakeCase
import TxLens.Signer.Catalog
import TxLens.MessageType
import TxLens.Event.Accounts
import TxLens.Outcome
import TxLens.Json.Parser
import TxLens.Json.Printer
import TxLens.Json.Record
import TxLens.Fee.Memo
import TxLens.Fee.Surcharge
import TxLens.Fee.Resolution
import TxLens.Signature
import TxLens.Summary
import TxLens.Inspection
import TxLens.Main
import TxLens.Proofs.Keyed
import TxLens.Proofs.Signer.Lookup
import TxLens.Proofs.Signer.Catalog
import TxLens.Proofs.Signer.Preorder
import TxLens.Proofs.Fee.Tiers
import TxLens.Proofs.Wire.Varint
import TxLens.Proofs.Wire.RoundTrip
import TxLens.Proofs.Wire.Object
import TxLens.Proofs.Tx.RoundTrip
import TxLens.Proofs.Bech32.Checksum
import TxLens.Proofs.Bech32.LetterCase
import TxLens.Proofs.Bech32.Regroup
import TxLens.Proofs.Bech32.Grammar
import TxLens.Proofs.Address.Grammar
import TxLens.Proofs.Signer.LongestSuffix
import TxLens.Proofs.Signer.Quotation
import TxLens.Proofs.Event.Accounts
import TxLens.Proofs.Summary.Verdict
import TxLens.Proofs.Fee.Inquiry
import TxLens.Proofs.Fee.Memo
import TxLens.Proofs.Fee.Interleaving
import TxLens.Proofs.Summary.Batch
import TxLens.Proofs.Wire.Grammar
import TxLens.Proofs.Wire.Segment
import TxLens.Proofs.Insertion
import TxLens.Proofs.Signer.FieldOrder
import TxLens.Proofs.Signer.UnknownFields
import TxLens.Proofs.Fee.Dependence
import TxLens.Proofs.Summary.PackedCopy
import TxLens.Proofs.Key.Family
import TxLens.Proofs.Signature.Views
import TxLens.Proofs.Fee.Epochs
import TxLens.Proofs.Address.Classes
import TxLens.Proofs.Config.Validation
import TxLens.Proofs.Json.Literal
import TxLens.Proofs.Json.Grammar
import TxLens.Proofs.Json.Printing
import TxLens.Proofs.Json.Record
import TxLens.Proofs.Config.Rendering
import TxLens.Proofs.Fee.Listing
import TxLens.Proofs.Fee.Reconstruction
import TxLens.Proofs.Key.Account
import TxLens.Proofs.Inspection.CommandLine
import TxLens.Proofs.Inspection.Report
import TxLens.Proofs.Inspection.Run
import TxLens.Proofs.Address.Burst
import TxLens.Proofs.Address.Conversion
import TxLens.Proofs.Fee.Documents
import TxLens.Proofs.Fee.Arrangement
import TxLens.Proofs.BitArray
import TxLens.Proofs.Key.Members
import TxLens.Proofs.Event.Lookup
import TxLens.Proofs.Text.Blank
import TxLens.Proofs.Text.SnakeCase
import TxLens.Proofs.Money
import TxLens.Proofs.Event.Agreement
import TxLens.Proofs.Event.Message
import TxLens.Proofs.Fee.Saturation
import TxLens.Proofs.BitArray.Packing
import TxLens.Proofs.Tx.Merge
import TxLens.Proofs.MessageType.Action
