import Mathlib.Data.List.Forall2
import TxLens.Proofs.Inspection.CommandLine
import TxLens.Proofs.Inspection.Report
import TxLens.Proofs.Signer.Catalog
import TxLens.Proofs.Summary.Batch
import TxLens.Proofs.Summary.PackedCopy
import TxLens.Proofs.Summary.Printing
import TxLens.Proofs.Summary.Reading
/-!
# Inspections file by file

Once the configuration and the schedule are there, a file contributes what its content alone says: the
summary of the transaction it holds, or nothing (`elements`). An inspection prints the contributions of
its files one after another, although the transactions are summarised as one batch; so it prints what
inspections of each file by itself print, and a file without a summary is as good as none. The summaries
can be read back from what is printed (`run_file_by_file`).
-/

namespace TxLens.Inspection

/-! ## One file -/

section

variable (c : Config) (s : FeeSchedule)

/-- A file can be read and holds a report, of a transaction with this summary. -/
inductive Yields (hex : Bool) : Except FileFault Bytes → Summary → Prop
  | mk {content bs : Bytes} {o : Outcome} {x : Summary} (hholds : Holds hex content bs)
      (hreport : Outcome.ofBytes bs = .ok o)
      (hsummary : (Summary.ofOutcome .standard c s.lookup o).run = .ok x) :
      Yields hex (.ok content) x

/-- The summary of the transaction that a file holds, if there is one. -/
def summary? (hex : Bool) (file : Except FileFault Bytes) : Option Summary :=
  ((file.toOption.bind (report? hex)).bind fun bs => (Outcome.ofBytes bs).toOption).bind fun o =>
    (Summary.ofOutcome .standard c s.lookup o).run.toOption

/-- What a file contributes to the list that is printed. -/
def elements (hex : Bool) (file : Except FileFault Bytes) : List Json :=
  (summary? c s hex file).toList.map Summary.toJson

end

variable {files : Files} {o : Options} {c : Config} {s : FeeSchedule} {hex : Bool}

theorem summary?_eq_some_iff {file : Except FileFault Bytes} {x : Summary} :
    summary? c s hex file = some x ↔ Yields c s hex file x := by
  simp only [summary?, Option.bind_eq_some_iff, toOption_eq_some_iff, report?_eq_some_iff]
  constructor
  · rintro ⟨o, ⟨bs, ⟨content, rfl, hholds⟩, hreport⟩, hsummary⟩
    exact .mk hholds hreport hsummary
  · rintro ⟨hholds, hreport, hsummary⟩
    exact ⟨_, ⟨_, ⟨_, rfl, hholds⟩, hreport⟩, hsummary⟩

theorem elements_of_yields {file : Except FileFault Bytes} {x : Summary}
    (h : Yields c s hex file x) : elements c s hex file = [x.toJson] := by
  rw [elements, summary?_eq_some_iff.2 h]
  rfl

theorem elements_of_not_yields {file : Except FileFault Bytes}
    (h : ∀ x, ¬ Yields c s hex file x) : elements c s hex file = [] := by
  rw [elements, Option.eq_none_iff_forall_ne_some.2 fun x hx => h x (summary?_eq_some_iff.1 hx)]
  rfl

/-- A report may be held as it is or in hexadecimal. -/
theorem elements_hex {content bs : Bytes} (h : IsHexText content bs) :
    elements c s true (.ok content) = elements c s false (.ok bs) := by
  have hhex : report? true content = some bs := report?_eq_some_iff.2 (.hex h)
  have hplain : report? false bs = some bs := rfl
  simp only [elements, summary?, Except.toOption, Option.bind_some, hhex, hplain]

/-! ## All files -/

theorem summaries_eq_filterMap (paths : List String) :
    summaries files hex c s paths = paths.filterMap fun path => summary? c s hex (files path) := by
  have hbatch : Summary.ofBatch .standard c s (paths.filterMap (outcome? files hex)) =
      (paths.filterMap (outcome? files hex)).map fun o =>
        (Summary.ofOutcome .standard c s.lookup o).run :=
    Summary.inTurn_eq_map .standard c s.lookup _
  rw [summaries, hbatch, List.filterMap_map, List.filterMap_filterMap]
  rfl

/-- An inspection comes to an end with these elements as a list on several lines. The list can be read
back, so it is determined by the output. -/
structure Prints (r : Result) (js : List Json) : Prop where
  exit : r.exit = 0
  output : r.output = (Json.list js).toIndentedText ++ "\n"
  parsed : Json.parse? r.output.toList = some (.list js)

theorem Prints.unique {r : Result} {js js' : List Json} (h : Prints r js) (h' : Prints r js') :
    js = js' :=
  Json.list.inj (Option.some.inj (h.parsed.symm.trans h'.parsed))

theorem prints_render (xs : List Summary) : Prints ⟨0, render xs⟩ (xs.map Summary.toJson) := by
  refine ⟨rfl, rfl, ?_⟩
  have hprintable : Json.Printable (.list (xs.map Summary.toJson)) :=
    Json.printable_list_map Summary.printable_toJson xs
  have hnewline : Json.Blanks ['\n'] := by
    intro c hc
    rw [List.mem_singleton.1 hc]
    decide
  rw [render, Json.toIndentedText, String.toList_append, String.toList_ofList]
  exact Json.parse?_printIndented hprintable 0 hnewline

theorem elements_eq_map (hex : Bool) (paths : List String) :
    (paths.flatMap fun path => elements c s hex (files path)) =
      (paths.filterMap fun path => summary? c s hex (files path)).map Summary.toJson := by
  rw [List.filterMap_eq_flatMap_toList, List.map_flatMap]
  rfl

theorem run_of_some (hc : config? files o = some c) (hs : schedule? files o = some s) :
    Prints (run files o) (o.files.flatMap fun path => elements c s o.hex (files path)) := by
  have hrun : run files o = ⟨0, render (summaries files o.hex c s o.files)⟩ := by
    rw [run, hc, hs]
  rw [hrun, elements_eq_map, ← summaries_eq_filterMap]
  exact prints_render _

theorem listOfText?_run (hc : config? files o = some c) (hs : schedule? files o = some s) :
    Summary.listOfText? (run files o).output =
      some (o.files.filterMap fun path => summary? c s o.hex (files path)) := by
  have hparsed := (run_of_some hc hs).parsed
  rw [elements_eq_map] at hparsed
  exact Summary.listOfText?_of_parse hparsed

/-- What a file contributes is printed for it by itself. -/
theorem run_of_file (hc : config? files o = some c) (hs : schedule? files o = some s) (hex : Bool)
    (path : String) :
    Prints (run files { o with hex := hex, files := [path] }) (elements c s hex (files path)) := by
  have hone := run_of_some (o := { o with hex := hex, files := [path] }) hc hs
  rwa [List.flatMap_singleton] at hone

/-- Whatever was printed for each of some files by itself, together it is all that they contribute. -/
theorem flatten_of_prints (hc : config? files o = some c) (hs : schedule? files o = some s)
    {paths : List String} {jss : List (List Json)}
    (h : List.Forall₂ (fun path => Prints (run files { o with files := [path] })) paths jss) :
    jss.flatten = paths.flatMap fun path => elements c s o.hex (files path) := by
  induction h with
  | nil => rfl
  | cons hprints _ ih =>
    rw [List.flatten_cons, List.flatMap_cons, ih, hprints.unique (run_of_file hc hs o.hex _)]

theorem run_of_none (h : config? files o = none ∨ schedule? files o = none) :
    run files o = ⟨1, ""⟩ := by
  rw [run]
  split
  · rename_i hc hs
    rw [hc, hs] at h
    exact h.elim nofun nofun
  · rfl

/-- **An inspection takes its files one by one.** With a configuration and a schedule it prints the
summaries of the transactions in its files, one file after another and nothing for a file without a
summary, and comes to a good end. What a file contributes depends on its content alone, so it is the
same in every inspection with these documents, and the same for bytes and for their digits; it says all
that the summary does, so the summaries are read back from what is printed. Without a configuration or
a schedule nothing is printed and the inspection fails. -/
theorem run_file_by_file :
    -- a command line asks for one file at least, and each of its files can be asked for by itself
    (∀ files args o, Options.ofArguments? args = some o →
      ofArguments files args = run files o ∧ o.files ≠ [] ∧
        ∀ hex, ∀ path ∈ o.files, ∃ args', Options.ofArguments? args' =
          some { o with hex := hex, files := [path] }) ∧
    -- without the documents
    (∀ files o, config? files o = none ∨ schedule? files o = none →
      ∀ hex paths, run files { o with hex := hex, files := paths } = ⟨1, ""⟩) ∧
    ∀ c s,
      -- what a file contributes
      (∀ hex file x, summary? c s hex file = some x ↔ Yields c s hex file x) ∧
      (∀ x : Summary, Summary.ofJson? x.toJson = some x) ∧
      (∀ hex file x, Yields c s hex file x → elements c s hex file = [x.toJson]) ∧
      (∀ hex file, (∀ x, ¬ Yields c s hex file x) → elements c s hex file = []) ∧
      (∀ content bs, IsHexText content bs →
        elements c s true (.ok content) = elements c s false (.ok bs)) ∧
      (∀ bs, IsHexText (Bytes.ofText (Bytes.toHex bs)) bs) ∧
      -- what is printed for all files and for each of them by itself, and that it is the same
      ∀ files o, config? files o = some c → schedule? files o = some s →
        Prints (run files o) (o.files.flatMap fun path => elements c s o.hex (files path)) ∧
        Summary.listOfText? (run files o).output =
          some (o.files.filterMap fun path => summary? c s o.hex (files path)) ∧
        (∀ hex path, Prints (run files { o with hex := hex, files := [path] })
          (elements c s hex (files path))) ∧
        ∀ jss, List.Forall₂ (fun path => Prints (run files { o with files := [path] })) o.files jss →
          Prints (run files o) jss.flatten := by
  refine ⟨fun files args o h => ?_, fun files o h hex paths => run_of_none h, fun c s =>
    ⟨fun hex file x => summary?_eq_some_iff, Summary.ofJson?_toJson,
      fun hex file x => elements_of_yields, fun hex file => elements_of_not_yields,
      fun content bs => elements_hex, isHexText_toHex, fun files o hc hs =>
        ⟨run_of_some hc hs, listOfText?_run hc hs, run_of_file hc hs, fun jss h => ?_⟩⟩⟩
  · have hrun : ofArguments files args = run files o := by
      rw [ofArguments, h]
    obtain ⟨hfiles, hpaths⟩ := Options.exists_ofArguments?_iff.1 ⟨args, h⟩
    refine ⟨hrun, hfiles, fun hex path hpath => Options.exists_ofArguments?_iff.2 ?_⟩
    rw [Options.not_mem_paths] at hpaths ⊢
    refine ⟨List.cons_ne_nil path [], hpaths.1, hpaths.2.1, fun hempty => hpaths.2.2 ?_⟩
    rwa [List.mem_singleton.1 hempty]
  · rw [flatten_of_prints hc hs h]
    exact run_of_some hc hs

/-- A transfer that one key signed and that offers a fee. -/
def paidTransfer : Outcome :=
  let transfer : Wire.Message := .ofText 1 "pb1from" ++ .ofText 2 "pb1to"
  let key := KeyBytes.mk (List.replicate 32 1)
  { response :=
      { height := 3, txhash := "AB", codespace := "", code := 0, rawLog := "", logs := [],
        gasWanted := 0, gasUsed := 0, tx := none, timestamp := "", events := [] }
    tx :=
      { body := some ⟨[⟨"/cosmos.bank.v1beta1.MsgSend", Wire.Message.print transfer⟩], "", 0⟩
        authInfo := some
          { signerInfos := [⟨some (.pack "/cosmos.crypto.ed25519.PubKey" key), none, 4⟩]
            fee := some ⟨[⟨"nhash", "7"⟩], 0, "", ""⟩ }
        signatures := [] } }

def paidReport : Bytes :=
  Wire.Object.encode (GetTxResponse.beside paidTransfer.response paidTransfer.tx)

/-- The digits of the report between blanks. -/
def paidDigits : Bytes :=
  Bytes.ofText (String.ofList ([' '] ++ (Bytes.hexChars paidReport ++ ['\n'])))

/-- Another file holds the beginning of a report, and all others are missing. -/
def paidFiles : Files := fun path =>
  if path = "paid" then .ok paidDigits
  else if path = "half" then .ok (Bytes.ofText "0A00")
  else .error .notFound

/-- What is said of the transfer is read back from what is printed for the three files. -/
theorem run_of_paidFiles :
    let address := "pb1wtxkappzcsrlkmgfs6g0zyct0hkhashh5hfnq9"
    let x : Summary :=
      { height := 3
        txhash := "AB"
        success := true
        messageTypes := [⟨"/cosmos.bank.v1beta1.MsgSend", "bank", "send"⟩]
        messageSigners := [["pb1from", "pb1to"]]
        addresses := ["pb1from", "pb1to"]
        firstSigner := some address
        signatures := [⟨0, "ed25519", some address,
          some "AQEBAQEBAQEBAQEBAQEBAQEBAQEBAQEBAQEBAQEBAQE=", 4, none⟩]
        surcharges := []
        resolution := ⟨⟨7, "nhash"⟩, .declaredFee⟩ }
    Yields .mainnet .empty true (paidFiles "paid") x ∧
      ofArguments paidFiles ["none", "paid", "--hex", "half"] = ⟨0, render [x]⟩ ∧
      Summary.listOfText? (render [x]) = some [x] := by
  intro address x
  let o : Options := ⟨none, none, none, true, ["none", "paid", "half"]⟩
  have hoptions : Options.ofArguments? ["none", "paid", "--hex", "half"] = some o := by decide +kernel
  have hspelled : IsHexText paidDigits paidReport := by
    refine .mk (fun c hc => ?_) (Bytes.spelledBy_hexChars paidReport) (fun c hc => ?_)
    · rw [List.mem_singleton.1 hc]
      decide
    · rw [List.mem_singleton.1 hc]
      decide
  have hyields : Yields .mainnet .empty true (paidFiles "paid") x := by
    refine .mk (.hex hspelled) (Outcome.ofBytes_beside (by decide +kernel) (by decide +kernel)) ?_
    rw [← toOption_eq_some_iff, Catalog.standard_eq]
    decide +kernel
  have hhalf : summary? .mainnet .empty true (paidFiles "half") = none := by decide +kernel
  have hnone : summary? .mainnet .empty true (paidFiles "none") = none := rfl
  obtain ⟨hargs, -, hall⟩ := run_file_by_file
  obtain ⟨hsummary, -, -, -, -, -, hrun⟩ := hall .mainnet .empty
  obtain ⟨hprints, hread, -⟩ := hrun paidFiles o rfl rfl
  have hlist : (o.files.filterMap fun path => summary? .mainnet .empty o.hex (paidFiles path)) =
      [x] := by
    simp [o, (hsummary _ _ _).2 hyields, hhalf, hnone]
  have houtput : (run paidFiles o).output = render [x] := by
    rw [hprints.output, elements_eq_map, hlist]
    rfl
  have hresult : ofArguments paidFiles ["none", "paid", "--hex", "half"] = ⟨0, render [x]⟩ := by
    rw [(hargs _ _ _ hoptions).1, ← hprints.exit, ← houtput]
  refine ⟨hyields, hresult, ?_⟩
  rw [← houtput, hread, hlist]

/-- How the summary of a report that says nothing is laid out. -/
example :
    let files : Files := fun _ => .ok (Bytes.ofText "0a001200")
    ofArguments files ["--hex", "blank"] =
      ⟨0, "[\n  \x7b\n    \"height\": 0,\n    \"txhash\": \"\",\n    \"success\": true,\n" ++
        "    \"message_types\": [],\n    \"message_signers\": [],\n    \"addresses\": [],\n" ++
        "    \"first_signer\": null,\n    \"signatures\": [],\n    \"msg_based_fees\": [],\n" ++
        "    \"fee\": \x7b\n      \"amount\": 0,\n      \"denom\": \"nhash\"\n    \x7d,\n" ++
        "    \"fee_source\": \"declared_fee\"\n  \x7d\n]\n"⟩ := by
  decide +kernel

end TxLens.Inspection
