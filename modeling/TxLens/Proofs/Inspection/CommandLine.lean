import TxLens.Inspection.Options
/-!
# Command lines

Options can be asked for exactly when there is a file among them and no path is empty
(`exists_ofArguments?_iff`). One way to ask for them attaches every value with an equals sign and puts
the files behind two dashes, where a path may begin with a dash.
-/

namespace TxLens

def Network.name : Network → String
  | .mainnet => "mainnet"
  | .testnet => "testnet"

namespace Options

variable {o o' : Options}

/-! ## What can be asked for -/

theorem not_mem_paths {path : String} : path ∉ o.paths ↔
    o.configPath ≠ some path ∧ o.schedulePath ≠ some path ∧ path ∉ o.files := by
  simp only [paths, List.mem_append, Option.mem_toList, not_or, and_assoc]

theorem not_mem_paths_append {paths : List String} (hpaths : "" ∉ paths) (ho : "" ∉ o.paths) :
    "" ∉ { o with files := o.files ++ paths }.paths := by
  rw [not_mem_paths] at ho ⊢
  exact ⟨ho.1, ho.2.1, fun h => (List.mem_append.1 h).elim ho.2.2 hpaths⟩

theorem addFile?_eq_some_iff {path : String} :
    o.addFile? path = some o' ↔ path ≠ "" ∧ o' = { o with files := o.files ++ [path] } := by
  by_cases h : path = "" <;> simp [addFile?, h, eq_comm]

theorem foldlM_addFile?_eq_some_iff {paths : List String} : paths.foldlM addFile? o = some o' ↔
    "" ∉ paths ∧ o' = { o with files := o.files ++ paths } := by
  induction paths generalizing o with
  | nil => simp [eq_comm]
  | cons path paths ih =>
    simp only [List.foldlM_cons, Option.bind_eq_bind, Option.bind_eq_some_iff, addFile?_eq_some_iff,
      ih, List.mem_cons, not_or]
    constructor
    · rintro ⟨_, ⟨hpath, rfl⟩, hpaths, rfl⟩
      exact ⟨⟨Ne.symm hpath, hpaths⟩, by simp⟩
    · rintro ⟨⟨hpath, hpaths⟩, rfl⟩
      exact ⟨_, ⟨Ne.symm hpath, rfl⟩, hpaths, by simp⟩

/-! ### No step of gathering takes an empty path -/

theorem not_mem_paths_of_addFile? {path : String} (h : o.addFile? path = some o')
    (ho : "" ∉ o.paths) : "" ∉ o'.paths := by
  obtain ⟨hpath, rfl⟩ := addFile?_eq_some_iff.1 h
  exact not_mem_paths_append (by simpa using Ne.symm hpath) ho

theorem not_mem_paths_of_setHex? (h : o.setHex? = some o') (ho : "" ∉ o.paths) : "" ∉ o'.paths := by
  unfold setHex? at h
  split at h
  · cases h
  · cases h
    exact ho

theorem not_mem_paths_of_set? {s : Setting} {value : String} (h : o.set? s value = some o')
    (ho : "" ∉ o.paths) : "" ∉ o'.paths := by
  rw [not_mem_paths] at ho ⊢
  obtain ⟨hconfig, hschedule, hfiles⟩ := ho
  unfold set? at h
  split at h
  · cases h
  · rename_i hvalue
    have hsome : some value ≠ some "" := fun hv => hvalue (Option.some.inj hv)
    cases s with
    | network =>
      dsimp only at h
      split at h
      · cases h
        exact ⟨hconfig, hschedule, hfiles⟩
      · cases h
    | config =>
      dsimp only at h
      split at h
      · cases h
      · cases h
        exact ⟨hsome, hschedule, hfiles⟩
    | schedule =>
      dsimp only at h
      split at h
      · cases h
      · cases h
        exact ⟨hconfig, hsome, hfiles⟩

theorem not_mem_paths_of_gather? {args : List String} (h : o.gather? args = some o')
    (ho : "" ∉ o.paths) : "" ∉ o'.paths := by
  fun_induction gather? o args with
  | case1 o =>
    cases h
    exact ho
  | case2 o arg args path hplain ih =>
    obtain ⟨next, hnext, h⟩ := Option.bind_eq_some_iff.1 h
    exact ih next h (not_mem_paths_of_addFile? hnext ho)
  | case3 o arg args hfiles =>
    obtain ⟨hpaths, rfl⟩ := foldlM_addFile?_eq_some_iff.1 h
    exact not_mem_paths_append hpaths ho
  | case4 o arg args hhex ih =>
    obtain ⟨next, hnext, h⟩ := Option.bind_eq_some_iff.1 h
    exact ih next h (not_mem_paths_of_setHex? hnext ho)
  | case5 o arg args s value hsetting ih =>
    obtain ⟨next, hnext, h⟩ := Option.bind_eq_some_iff.1 h
    exact ih next h (not_mem_paths_of_set? hnext ho)
  | case7 o arg s hsetting text args value hplain ih =>
    obtain ⟨next, hnext, h⟩ := Option.bind_eq_some_iff.1 h
    exact ih next h (not_mem_paths_of_set? hnext ho)
  | case6 | case8 | case9 => cases h

/-! ## One way to ask -/

/-- A setting with its value attached. -/
def Setting.argument (s : Setting) (value : String) : String := "--" ++ s.name ++ "=" ++ value

/-- A command line that asks for these options. -/
def commandLine (o : Options) : List String :=
  ((o.network.map Network.name).map (Setting.argument .network)).toList ++
    ((o.configPath.map (Setting.argument .config)).toList ++
      ((o.schedulePath.map (Setting.argument .schedule)).toList ++
        ((if o.hex then ["--hex"] else []) ++ "--" :: o.files)))

theorem Argument.ofText_argument (s : Setting) (value : String) :
    Argument.ofText (s.argument value) = .setting s (some value) := by
  cases s <;>
    simp [Argument.ofText, Setting.argument, Setting.name, Argument.ofLong, Text.splitFirst] <;>
    rfl

theorem gather?_settings (o : Options) (s : Setting) (value : Option String) (args : List String) :
    o.gather? ((value.map s.argument).toList ++ args) =
      (value.elim (some o) (o.set? s)).bind fun o => o.gather? args := by
  cases value with
  | none => rfl
  | some value =>
    rw [Option.map_some, Option.toList_some, List.singleton_append, gather?]
    simp only [Argument.ofText_argument, Option.elim_some]

theorem gather?_hex (o : Options) (hex : Bool) (args : List String) :
    o.gather? ((if hex then ["--hex"] else []) ++ args) =
      (if hex then o.setHex? else some o).bind fun o => o.gather? args := by
  cases hex with
  | false => rfl
  | true =>
    have htext : Argument.ofText "--hex" = .hex := rfl
    rw [if_pos rfl, if_pos rfl, List.singleton_append, gather?]
    simp only [htext]

theorem gather?_files (o : Options) (paths : List String) :
    o.gather? ("--" :: paths) = paths.foldlM addFile? o := by
  have htext : Argument.ofText "--" = .onlyFilesFollow := rfl
  rw [gather?]
  simp only [htext]

theorem gather?_commandLine (ho : "" ∉ o.paths) : blank.gather? o.commandLine = some o := by
  obtain ⟨network, config, schedule, hex, files⟩ := o
  obtain ⟨hconfig, hschedule, hfiles⟩ := not_mem_paths.1 ho
  have hset₁ : (network.map Network.name).elim (some blank) (blank.set? .network) =
      some ⟨network, none, none, false, []⟩ := by
    rcases network with _ | _ | _ <;> rfl
  have hset₂ : config.elim (some ⟨network, none, none, false, []⟩)
      (set? ⟨network, none, none, false, []⟩ .config) =
        some ⟨network, config, none, false, []⟩ := by
    cases config with
    | none => rfl
    | some path => exact if_neg fun h => hconfig (congrArg some h)
  have hset₃ : schedule.elim (some ⟨network, config, none, false, []⟩)
      (set? ⟨network, config, none, false, []⟩ .schedule) =
        some ⟨network, config, schedule, false, []⟩ := by
    cases schedule with
    | none => rfl
    | some path => exact if_neg fun h => hschedule (congrArg some h)
  have hset₄ : (if hex then setHex? ⟨network, config, schedule, false, []⟩
      else some ⟨network, config, schedule, false, []⟩) =
        some ⟨network, config, schedule, hex, []⟩ := by
    cases hex <;> rfl
  simp only [commandLine, gather?_settings, hset₁, Option.bind_some, hset₂, hset₃, gather?_hex, hset₄,
    gather?_files]
  exact foldlM_addFile?_eq_some_iff.2 ⟨hfiles, rfl⟩

/-- Options can be asked for when there is a file among them and no path is empty, and only then. -/
theorem exists_ofArguments?_iff :
    (∃ args, ofArguments? args = some o) ↔ o.files ≠ [] ∧ "" ∉ o.paths := by
  simp only [ofArguments?, Option.filter_eq_some_iff]
  constructor
  · rintro ⟨args, h, hfiles⟩
    exact ⟨by simpa using hfiles, not_mem_paths_of_gather? h (by decide)⟩
  · rintro ⟨hfiles, ho⟩
    exact ⟨o.commandLine, gather?_commandLine ho, by simpa using hfiles⟩

end Options

end TxLens
