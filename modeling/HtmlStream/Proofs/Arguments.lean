import HtmlStream.CommandLine.Options
import HtmlStream.Proofs.Lines.Written

/-! # Options can be asked for

Each setting has an argument that writes it, and options are the settings that write them. What is
written so is understood so: any options can be asked for, but for a file without a name, a file with
the name of standard input, and a size that is no word.

* **`Setting.argument`**, **`readSettings_append`**: a setting as one argument, and that it is read
  back.
* **`Options.settings`**, **`Options.arguments`**: the settings and the arguments that write
  options.
* **`Options.ofArguments_arguments`**: they are understood as these options. -/

namespace HtmlStream

/-- What is read as digits is read as a number, if there is a digit and the number is a word. -/
theorem Text.readWord?_of_readDigits? {base n : Nat} {s : String}
    (hread : readDigits? base 0 s.toList = some n) (hs : s.toList ≠ []) (hn : n ≤ Word.greatest) :
    readWord? base s = some n := by
  rw [readWord?]
  split
  case h_1 rest hplus =>
    -- a plus sign is no digit
    exact absurd rfl (digitValue?_of_readDigits? hread (hplus ▸ List.mem_cons_self))
  case h_2 => simp [hs, hread, hn]

theorem Text.readWord?_toString {n : Nat} (h : n ≤ Word.greatest) :
    readWord? 10 (toString n) = some n := by
  refine readWord?_of_readDigits? (readDigits?_toString n) ?_ h
  rw [Nat.toString_eq_ofList_toDigits, String.toList_ofList]
  exact Nat.toDigits_ne_nil

namespace CommandLine

/-! ## (1) One setting -/

/-- The name of a flag. -/
def Flag.name : Flag → String
  | .shared => "shared"
  | .exactErrors => "exact-errors"
  | .keepBom => "keep-bom"
  | .check => "check"
  | .stats => "stats"

/-- The name of an option with a value. -/
def ValueOption.name : ValueOption → String
  | .chunkSize => "chunk-size"
  | .format => "format"
  | .initialState => "initial-state"
  | .lastStartTag => "last-start-tag"

/-- The argument that writes a setting. -/
def Setting.argument (s : Setting) : String :=
  match s.key with
  | .flag f => "--" ++ f.name
  | .value o => "--" ++ o.name ++ "=" ++ s.value
  | .file => s.value

/-- A flag that is set. -/
def Flag.setting (f : Flag) : Setting where
  key := .flag f

/-- An option with its value. -/
def ValueOption.setting (o : ValueOption) (value : String) : Setting where
  key := .value o
  value := value

/-- A file that is named. -/
def fileSetting (name : String) : Setting where
  key := .file
  value := name

/-- Settings whose arguments are options. -/
inductive Setting.IsOption : Setting → Prop where
  /-- A flag. -/
  | flag (f : Flag) : IsOption f.setting
  /-- An option with its value. -/
  | value (o : ValueOption) (value : String) : IsOption (o.setting value)

theorem Flag.shape_argument (f : Flag) :
    Shape.ofArgument f.setting.argument = .option f.name none := by
  cases f <;> decide

theorem ValueOption.shape_argument (o : ValueOption) (value : String) :
    Shape.ofArgument (o.setting value).argument = .option o.name (some value) := by
  cases o <;>
    simp [setting, Setting.argument, name, Shape.ofArgument, List.dropWhile, List.takeWhile]

/-- **An option is read as its setting.** -/
theorem readSettings_argument {s : Setting} (h : s.IsOption) (rest : List String) :
    readSettings false (s.argument :: rest) = (s :: ·) <$> readSettings false rest := by
  rw [readSettings]
  cases h with
  | flag f =>
    have hflag : flag? f.name = some f := by cases f <;> rfl
    simp only [Bool.false_eq_true, if_false, f.shape_argument, hflag]
    rfl
  | value o value =>
    have hflag : flag? o.name = none := by cases o <;> rfl
    have hoption : valueOption? o.name = some o := by cases o <;> rfl
    simp only [Bool.false_eq_true, if_false, o.shape_argument, hflag, hoption]
    rfl

/-- Options are read in turn, and then what is behind them. -/
theorem readSettings_append {settings : List Setting} (h : ∀ s ∈ settings, s.IsOption)
    (rest : List String) : readSettings false (settings.map Setting.argument ++ rest)
      = (settings ++ ·) <$> readSettings false rest := by
  induction settings with
  | nil => exact (id_map _).symm
  | cons s settings ih =>
    rw [List.forall_mem_cons] at h
    rw [List.map_cons, List.cons_append, readSettings_argument h.1, ih h.2, Functor.map_map]
    rfl

/-! ## (2) The settings of options -/

/-- The name of a form of output. -/
def formatName : Format → String
  | .text => "text"
  | .json => "json"

/-- The name of a kind of content. -/
def initialStateName : InitialState → String
  | .data => "data"
  | .rcdata => "rcdata"
  | .rawtext => "rawtext"
  | .scriptData => "script-data"
  | .plaintext => "plaintext"

namespace Options

variable (o : Options)

/-- The options with a value. -/
def values : List Setting :=
  ValueOption.chunkSize.setting (toString o.chunkSize) ::
    ValueOption.format.setting (formatName o.format) ::
    ValueOption.initialState.setting (initialStateName o.initialState) ::
    (o.lastStartTag.map ValueOption.lastStartTag.setting).toList

/-- Whether a flag is set. -/
def has : Flag → Bool
  | .shared => o.shared
  | .exactErrors => o.exactErrors
  | .keepBom => o.keepBom
  | .check => o.check
  | .stats => o.stats

/-- The flags that are set. -/
def flags : List Flag := [.shared, .exactErrors, .keepBom, .check, .stats].filter o.has

/-- The file, if there is one. -/
def files : List Setting := (o.file.map fileSetting).toList

/-- **The settings that write options.** -/
def settings : List Setting := o.values ++ o.flags.map Flag.setting ++ o.files

/-- **The arguments that write options.** The file stands behind the end of the options. -/
def arguments : List String :=
  (o.values ++ o.flags.map Flag.setting).map Setting.argument ++
    "--" :: o.files.map Setting.argument

theorem isOption_of_mem {s : Setting} (hs : s ∈ o.values ++ o.flags.map Flag.setting) :
    s.IsOption := by
  rw [List.mem_append] at hs
  rcases hs with hs | hs
  · simp only [values, List.mem_cons, Option.mem_toList, Option.map_eq_some_iff] at hs
    rcases hs with rfl | rfl | rfl | ⟨name, -, rfl⟩
    all_goals exact .value _ _
  · obtain ⟨f, -, rfl⟩ := List.mem_map.mp hs
    exact .flag f

/-- **The arguments are read as the settings.** -/
theorem readSettings_arguments : readSettings false o.arguments = .ok o.settings := by
  have hfiles : readSettings false ("--" :: o.files.map Setting.argument) = .ok o.files := by
    have hend : Shape.ofArgument "--" = .endOfOptions := by decide
    rw [files, readSettings]
    simp only [Bool.false_eq_true, if_false, hend]
    cases o.file with
    | none => rfl
    | some name =>
      show readSettings true [name] = _
      rw [readSettings, if_pos rfl]
      rfl
  rw [arguments, readSettings_append fun _ => o.isOption_of_mem, hfiles]
  rfl

end Options

/-! ## (3) What the settings come to -/

/-- Nothing is given twice in settings about different things. -/
theorem firstRepeated?_eq_none {settings : List Setting} (h : (settings.map Setting.key).Nodup) :
    firstRepeated? settings = none := by
  induction settings with
  | nil => rfl
  | cons s rest ih =>
    rw [List.map_cons, List.nodup_cons] at h
    have hany : rest.any (·.key = s.key) = false := by
      rw [List.any_eq_false]
      intro t ht hkey
      exact h.1 (List.mem_map.mpr ⟨t, ht, of_decide_eq_true hkey⟩)
    rw [firstRepeated?, hany]
    exact ih h.2

namespace Options

variable (o : Options)

/-- All that settings can be about. -/
def allKeys : List Key :=
  [.value .chunkSize, .value .format, .value .initialState, .value .lastStartTag] ++
    [Flag.shared, .exactErrors, .keepBom, .check, .stats].map Key.flag ++ [.file]

theorem keys_sublist : (o.settings.map Setting.key).Sublist allKeys := by
  rw [settings, List.map_append, List.map_append]
  refine (List.Sublist.append ?_ ?_).append ?_
  · rw [values]
    cases o.lastStartTag <;> simp [ValueOption.setting]
  · rw [List.map_map]
    exact List.filter_sublist.map _
  · rw [files]
    cases o.file <;> simp [fileSetting]

/-- The settings are about different things. -/
theorem nodup_keys : (o.settings.map Setting.key).Nodup :=
  o.keys_sublist.nodup (by decide)

/-- The options before a flag is set and the file is known. -/
def unflagged : Options where
  chunkSize := o.chunkSize
  format := o.format
  initialState := o.initialState
  lastStartTag := o.lastStartTag

theorem foldlM_values (hsize : o.chunkSize ≤ Word.greatest) :
    o.values.foldlM apply {} = .ok o.unflagged := by
  have hread := Text.readWord?_toString hsize
  have hformat : format? (formatName o.format) = some o.format := by cases o.format <;> rfl
  have hstate : initialState? (initialStateName o.initialState) = some o.initialState := by
    cases o.initialState <;> rfl
  rw [values, unflagged]
  simp only [List.foldlM_cons, apply, ValueOption.setting, withValue?, hread, hformat, hstate,
    Option.map_some]
  cases o.lastStartTag <;> rfl

/-- Flags are set in turn. -/
theorem foldlM_flags (base : Options) (flags : List Flag) :
    (flags.map Flag.setting).foldlM apply base = .ok (flags.foldl withFlag base) := by
  induction flags generalizing base with
  | nil => rfl
  | cons f fs ih => exact ih _

theorem foldl_flags : o.flags.foldl withFlag o.unflagged = { o with file := none } := by
  obtain ⟨file, chunkSize, shared, exactErrors, keepBom, check, format, initialState, lastStartTag,
    stats⟩ := o
  cases shared <;> cases exactErrors <;> cases keepBom <;> cases check <;> cases stats <;> rfl

/-- The file is set; standard input is no file. -/
theorem foldlM_files (hfile : ∀ name, o.file = some name → name ≠ "" ∧ name ≠ "-") :
    o.files.foldlM apply { o with file := none } = .ok o := by
  obtain ⟨file, chunkSize, shared, exactErrors, keepBom, check, format, initialState, lastStartTag,
    stats⟩ := o
  cases file with
  | none => rfl
  | some name =>
    obtain ⟨hempty, hdash⟩ := hfile name rfl
    simp [files, fileSetting, apply, hempty, hdash]

/-- **The settings come to the options.** -/
theorem foldlM_settings (hsize : o.chunkSize ≤ Word.greatest)
    (hfile : ∀ name, o.file = some name → name ≠ "" ∧ name ≠ "-") :
    o.settings.foldlM apply {} = .ok o := by
  rw [settings, List.foldlM_append, List.foldlM_append, o.foldlM_values hsize]
  show (do
    let base ← (o.flags.map Flag.setting).foldlM apply o.unflagged
    o.files.foldlM apply base) = _
  rw [foldlM_flags, foldl_flags]
  exact o.foldlM_files hfile

/-- **Options can be asked for.** -/
theorem ofArguments_arguments (hsize : o.chunkSize ≤ Word.greatest)
    (hfile : ∀ name, o.file = some name → name ≠ "" ∧ name ≠ "-") :
    ofArguments o.arguments = .ok o := by
  rw [ofArguments, readSettings_arguments]
  simp only [bind, Except.bind, firstRepeated?_eq_none o.nodup_keys]
  exact o.foldlM_settings hsize hfile

end Options

end CommandLine

end HtmlStream
